/-
A column that caches a sum over the rows of another table, recomputed in full by each
transaction that changes those rows.

The recompute is one UPDATE whose sub-query reads the snapshot the statement started with.
When it has to wait for the cached row it does not read again, so it is two steps here:
the snapshot, and the write.  What makes the cache right after a commit is that nobody
committed a change to the same owner's rows in between (`Settled`); `commit_fresh` is that
rule.  The rest are the facts a transaction has to establish before it commits: it wrote
only what it computed (`Written`), and it recomputed every owner whose rows it changed
(`Covers`).
-/
import BookHouse.Lib.Versions
import Mathlib.Data.List.Range

/-- How the cached value comes from the rows: the owner a row counts for, what it counts
with, and the sum. -/
structure Formula (π ρ β α : Type*) where
  home : ρ → Option π
  value : ρ → Option β
  sum : List β → α

/-- A table, and a column of another table that sums it up for each owner `π`. -/
structure Cached (τ π ρ α : Type*) where
  rows : Versions τ ℕ ρ
  /-- the first id that has not been given out -/
  next : ℕ
  /-- the owner each id was given out for -/
  homes : ℕ → Option π
  cache : Versions τ π α
  /-- the recompute a transaction has started, with the rows in its snapshot -/
  snap : τ → Option (π × (ℕ → Option ρ))

/-- The statements on such a table. -/
inductive RowOp (π ρ : Type*)
  | get (id : ℕ)
  | first (c : ρ → Bool)
  | count (c : ρ → Bool)
  | insert (row : ρ)
  | update (id : ℕ) (f : ρ → ρ)
  | delete (id : ℕ)
  /-- the recompute starts … -/
  | snapshot (owner : π)
  /-- … and has the cached row -/
  | write

@[reducible] def RowOp.Res {π ρ : Type} : RowOp π ρ → Type
  | .get _ => Option ρ
  | .first _ => Option (ℕ × ρ)
  | .count _ => ℕ
  | .insert _ => ℕ
  | .update .. | .delete _ => Bool
  | .snapshot _ | .write => Unit

namespace Formula

variable {π ρ β α : Type*} [DecidableEq π] (F : Formula π ρ β α)

/-- What a row counts with for `p`. -/
def part (p : π) (r : ρ) : Option β := if F.home r = some p then F.value r else none

def values (n : ℕ) (rows : ℕ → Option ρ) (p : π) : List β :=
  (List.range n).filterMap fun k => (rows k).bind (F.part p)

variable {F} {n m : ℕ} {rows rows' : ℕ → Option ρ} {p : π} {x : α}

theorem values_congr (h : ∀ k, (rows k).bind (F.part p) = (rows' k).bind (F.part p)) :
    F.values n rows p = F.values n rows' p := by
  simp only [values, h]

/-- Ids beyond the last row add nothing. -/
theorem values_of_le (hb : ∀ k, n ≤ k → rows k = none) (h : n ≤ m) :
    F.values m rows p = F.values n rows p := by
  induction m with
  | zero =>
      obtain rfl : n = 0 := by omega
      rfl
  | succ m ih =>
      by_cases hm : n = m + 1
      · rw [hm]
      · have hle : n ≤ m := by omega
        have hnone : rows m = none := hb m hle
        rw [values, List.range_succ, List.filterMap_append, List.filterMap_cons, hnone]
        simpa [values] using ih hle

variable (F) in
/-- `x` is the sum over the rows of `p`. -/
def Sums (rows : ℕ → Option ρ) (p : π) (x : α) : Prop :=
  ∃ n, (∀ k, n ≤ k → rows k = none) ∧ x = F.sum (F.values n rows p)

theorem Sums.eq (h : F.Sums rows p x) (hb : ∀ k, n ≤ k → rows k = none) :
    x = F.sum (F.values n rows p) := by
  obtain ⟨m, hm, rfl⟩ := h
  by_cases hle : n ≤ m
  · rw [values_of_le hb hle]
  · rw [← values_of_le hm (by omega : m ≤ n)]

/-- Rows that count with the same give the same sum. -/
theorem Sums.congr (h : F.Sums rows p x) (hb : ∀ k, n ≤ k → rows' k = none)
    (heq : ∀ k, (rows k).bind (F.part p) = (rows' k).bind (F.part p)) : F.Sums rows' p x := by
  obtain ⟨m, hm, rfl⟩ := h
  refine ⟨max n m, fun k hk => hb k (by omega), ?_⟩
  rw [← values_congr heq, values_of_le hm (by omega : m ≤ max n m)]

end Formula

namespace Cached

/-- No rows yet, and these cached values. -/
def empty {τ π ρ α : Type} (cache : π → Option α) : Cached τ π ρ α where
  rows := .ofRows fun _ => none
  next := 0
  homes _ := none
  cache := .ofRows cache
  snap _ := none

section semantics

variable {τ π ρ β α : Type} [DecidableEq τ] [DecidableEq π]

/-- The row with the smallest id that `t` sees and `c` accepts. -/
def first (s : Cached τ π ρ α) (t : τ) (c : ρ → Bool) : Option (ℕ × ρ) :=
  (List.range s.next).findSome? fun k => ((s.rows.seen t k).filter c).map fun r => (k, r)

def count (s : Cached τ π ρ α) (t : τ) (c : ρ → Bool) : ℕ :=
  (List.range s.next).countP fun k => (s.rows.seen t k).any c

/-- A write of a row that `t` sees; it waits for the row. -/
def writeRow (s : Cached τ π ρ α) (t : τ) (k : ℕ) (f : ρ → Option ρ) :
    Option (Bool × Cached τ π ρ α) :=
  match s.rows.seen t k with
  | none => some (false, s)
  | some r => if s.rows.free t k then some (true, { s with rows := s.rows.put t k (f r) }) else none

/-- The recompute has the cached row, or waits for it; no such row, nothing to write. -/
def writeCache (F : Formula π ρ β α) (s : Cached τ π ρ α) (lock : π → Bool) (t : τ) : Option (Cached τ π ρ α) :=
  match s.snap t with
  | none => none
  | some (p, rows) =>
    if lock p then
      match s.cache.seen t p with
      | none => some s
      | some _ =>
        let value := F.sum (F.values s.next (s.rows.overlay t rows) p)
        some { s with cache := s.cache.put t p (some value) }
    else none

/-- The next id is given out. -/
def inserted (F : Formula π ρ β α) (s : Cached τ π ρ α) (t : τ) (row : ρ) : Cached τ π ρ α :=
  { s with rows := s.rows.put t s.next (some row), next := s.next + 1,
           homes := Function.update s.homes s.next (F.home row) }

/-- The recompute of `p` starts. -/
def snapped (s : Cached τ π ρ α) (t : τ) (p : π) : Cached τ π ρ α :=
  { s with snap := Function.update s.snap t (some (p, s.rows.committed)) }

/-- One statement of `t`; `none` while it has to wait. `lock p`: `t` can have the cached row. -/
def exec (F : Formula π ρ β α) (lock : π → Bool) (t : τ) (s : Cached τ π ρ α) :
    (o : RowOp π ρ) → Option (o.Res × Cached τ π ρ α)
  | .get k => some (s.rows.seen t k, s)
  | .first c => some (s.first t c, s)
  | .count c => some (s.count t c, s)
  | .insert row => some (s.next, inserted F s t row)
  | .update k f => s.writeRow t k fun r => some (f r)
  | .delete k => s.writeRow t k fun _ => none
  | .snapshot p => some ((), s.snapped t p)
  | .write => (s.writeCache F lock t).map fun s => ((), s)

def commit (s : Cached τ π ρ α) (t : τ) : Cached τ π ρ α :=
  { s with rows := s.rows.commit t, cache := s.cache.commit t,
           snap := Function.update s.snap t none }

def rollback (s : Cached τ π ρ α) (t : τ) : Cached τ π ρ α :=
  { s with rows := s.rows.rollback t, cache := s.cache.rollback t,
           snap := Function.update s.snap t none }

end semantics

/-! ### What is kept -/

variable {τ π ρ β α : Type} [DecidableEq τ] {F : Formula π ρ β α} {s s' u : Cached τ π ρ α}
  {t j : τ} {p : π} {k : ℕ}

/-- Ids are given out in order, and a row stays with the owner its id was given out for. -/
structure Wf (F : Formula π ρ β α) (s : Cached τ π ρ α) : Prop where
  committed_lt : ∀ k, s.next ≤ k → s.rows.committed k = none
  own_lt : ∀ t k, s.next ≤ k → s.rows.own t k = none
  snap_lt : ∀ t p rows, s.snap t = some (p, rows) → ∀ k, s.next ≤ k → rows k = none
  home_committed : ∀ k r, s.rows.committed k = some r → F.home r = s.homes k
  home_own : ∀ t k r, s.rows.own t k = some (some r) → F.home r = s.homes k
  cache : ∀ t p a, s.cache.own t p = some a → a ≠ none ∧ s.cache.committed p ≠ none

/-- What the steps of the others leave of the work of `t`. -/
structure Undisturbed (t : τ) (s s' : Cached τ π ρ α) : Prop where
  own : ∀ k, s'.rows.own t k = s.rows.own t k
  held : ∀ k, s.rows.own t k ≠ none → s'.rows.committed k = s.rows.committed k
  cache : ∀ p, s'.cache.own t p = s.cache.own t p
  snap : s'.snap t = s.snap t
  there : ∀ p, s'.cache.committed p = none ↔ s.cache.committed p = none
  next : s.next ≤ s'.next
  homes : ∀ k, k < s.next → s'.homes k = s.homes k

/-- The id was given out for `h`. -/
def Given (k : ℕ) (h : Option π) (s : Cached τ π ρ α) : Prop := k < s.next ∧ s.homes k = h

/-- `t` has changed rows of `h` only. -/
def Only (t : τ) (h : Option π) (s : Cached τ π ρ α) : Prop :=
  ∀ k, s.rows.own t k ≠ none → Given k h s

/-- `t` has written no cached value. -/
def Unwritten (t : τ) (s : Cached τ π ρ α) : Prop := ∀ p, s.cache.own t p = none

/-- `t` has changed nothing. -/
def Untouched (t : τ) (s : Cached τ π ρ α) : Prop :=
  (∀ k, s.rows.own t k = none) ∧ Unwritten t s

theorem Undisturbed.refl (t : τ) (s : Cached τ π ρ α) : Undisturbed t s s where
  own _ := rfl
  held _ _ := rfl
  cache _ := rfl
  snap := rfl
  there _ := Iff.rfl
  next := le_refl _
  homes _ _ := rfl

theorem Undisturbed.trans (h : Undisturbed t s s') (h' : Undisturbed t s' u) :
    Undisturbed t s u where
  own k := (h'.own k).trans (h.own k)
  held k hk := (h'.held k (by rwa [h.own k])).trans (h.held k hk)
  cache p := (h'.cache p).trans (h.cache p)
  snap := h'.snap.trans h.snap
  there p := (h'.there p).trans (h.there p)
  next := h.next.trans h'.next
  homes k hk := (h'.homes k (hk.trans_le h.next)).trans (h.homes k hk)

theorem empty_wf (cache : π → Option α) : Wf F (empty cache : Cached τ π ρ α) where
  committed_lt _ _ := rfl
  own_lt _ _ _ := rfl
  snap_lt t p rows h := by simp [empty] at h
  home_committed k r h := by simp [empty, Versions.ofRows] at h
  home_own t k r h := by simp [empty] at h
  cache t p a h := by simp [empty] at h

theorem empty_untouched (cache : π → Option α) : Untouched t (empty cache : Cached τ π ρ α) :=
  ⟨fun _ => rfl, fun _ => rfl⟩

theorem Wf.seen_lt (hw : Wf F s) (hk : s.next ≤ k) : s.rows.seen t k = none := by
  rw [Versions.seen_of_own_none (hw.own_lt t k hk), hw.committed_lt k hk]

theorem Wf.own_lt_next (hw : Wf F s) (hk : s.rows.own t k ≠ none) : k < s.next := by
  by_contra hle
  exact hk (hw.own_lt t k (by omega))

theorem Wf.seen_next (hw : Wf F s) {r : ρ} (h : s.rows.seen t k = some r) : k < s.next := by
  by_contra hle
  rw [hw.seen_lt (by omega)] at h
  cases h

/-- A row that `t` sees has the owner of its id. -/
theorem Wf.home_seen (hw : Wf F s) {r : ρ} (h : s.rows.seen t k = some r) :
    F.home r = s.homes k := by
  cases hown : s.rows.own t k with
  | none =>
      rw [Versions.seen_of_own_none hown] at h
      exact hw.home_committed k r h
  | some v =>
      rw [Versions.seen_of_own hown] at h
      exact hw.home_own t k r (by rw [hown, h])

theorem Given.stable {h : Option π} (hg : Given k h s) (hu : Undisturbed t s s') : Given k h s' :=
  ⟨hg.1.trans_le hu.next, (hu.homes k hg.1).trans hg.2⟩

theorem Wf.given_of_seen (hw : Wf F s) {r : ρ} (h : s.rows.seen t k = some r) :
    Given k (F.home r) s :=
  ⟨hw.seen_next h, (hw.home_seen h).symm⟩

theorem Only.stable {h : Option π} (ho : Only t h s) (hu : Undisturbed t s s') : Only t h s' := by
  intro k hk
  rw [hu.own] at hk
  exact (ho k hk).stable hu

theorem Unwritten.stable (h : Unwritten t s) (hu : Undisturbed t s s') : Unwritten t s' := by
  intro p
  rw [hu.cache]
  exact h p

theorem Untouched.stable (h : Untouched t s) (hu : Undisturbed t s s') : Untouched t s' :=
  ⟨fun k => by rw [hu.own]; exact h.1 k, h.2.stable hu⟩

theorem Untouched.only (h : Untouched t s) (o : Option π) : Only t o s :=
  fun k hk => absurd (h.1 k) hk

/-! ### Writes of a row -/

theorem writeRow_ok {f : ρ → Option ρ} {found : Bool}
    (h : s.writeRow t k f = some (found, s')) :
    s' = s ∨ ∃ r, s.rows.seen t k = some r ∧ s.rows.free t k ∧
      s' = { s with rows := s.rows.put t k (f r) } := by
  unfold writeRow at h
  split at h
  · exact .inl (Prod.mk.inj (Option.some.inj h)).2.symm
  · rename_i r hr
    split at h
    · rename_i hfree
      exact .inr ⟨r, hr, hfree, (Prod.mk.inj (Option.some.inj h)).2.symm⟩
    · cases h

/-- A new version of a row that is there, with the same owner. -/
theorem Wf.put (hw : Wf F s) {v : Option ρ} (hk : k < s.next) (hfree : s.rows.free t k)
    (hv : ∀ r, v = some r → F.home r = s.homes k) :
    Wf F { s with rows := s.rows.put t k v } where
  committed_lt := hw.committed_lt
  own_lt j i hi := by
    have hne : i ≠ k := by
      rintro rfl
      exact absurd hk (not_lt.mpr hi)
    simp only [Versions.own_put_of_ne hne]
    exact hw.own_lt j i hi
  snap_lt := hw.snap_lt
  home_committed := hw.home_committed
  home_own j i r hr := by
    by_cases hj : j = t
    · subst hj
      by_cases hi : i = k
      · subst hi
        simp only [Versions.own_put_self, Option.some.injEq] at hr
        exact hv r hr
      · simp only [Versions.own_put_of_ne hi] at hr
        exact hw.home_own j i r hr
    · simp only [Versions.own_put_other hj hfree] at hr
      exact hw.home_own j i r hr
  cache := hw.cache

theorem writeRow_wf (hw : Wf F s) {f : ρ → Option ρ} {found : Bool}
    (hf : ∀ r r', f r = some r' → F.home r' = F.home r)
    (h : s.writeRow t k f = some (found, s')) : Wf F s' := by
  rcases writeRow_ok h with rfl | ⟨r, hr, hfree, rfl⟩
  · exact hw
  · exact hw.put (hw.seen_next hr) hfree fun r' hr' => (hf r r' hr').trans (hw.home_seen hr)

theorem writeRow_undisturbed {f : ρ → Option ρ} {found : Bool}
    (h : s.writeRow t k f = some (found, s')) (hj : j ≠ t) : Undisturbed j s s' := by
  rcases writeRow_ok h with rfl | ⟨r, hr, hfree, rfl⟩
  · exact .refl j s'
  · exact { Undisturbed.refl j s with own := fun i => Versions.own_put_other hj hfree }

/-- Who writes a row of `h` has still changed rows of `h` only. -/
theorem writeRow_only {h : Option π} {f : ρ → Option ρ} {found : Bool} (ho : Only t h s)
    (hk : Given k h s) (hstep : s.writeRow t k f = some (found, s')) : Only t h s' := by
  rcases writeRow_ok hstep with rfl | ⟨r, hr, hfree, rfl⟩
  · exact ho
  · intro i hi
    by_cases hik : i = k
    · subst hik
      exact hk
    · rw [Versions.own_put_of_ne hik] at hi
      exact ho i hi

theorem writeRow_cache {f : ρ → Option ρ} {found : Bool}
    (h : s.writeRow t k f = some (found, s')) : s'.cache = s.cache := by
  rcases writeRow_ok h with rfl | ⟨r, hr, hfree, rfl⟩
  · rfl
  · rfl

/-! ### A new row -/

section insert

/-- The next id is nobody's yet. -/
theorem Wf.next_free (hw : Wf F s) : s.rows.free t s.next := by
  unfold Versions.free
  cases hp : s.rows.pending s.next with
  | none => rfl
  | some q =>
      have hown : s.rows.own q.1 s.next = some q.2 := Versions.own_eq_some.mpr hp
      rw [hw.own_lt q.1 s.next (le_refl _)] at hown
      cases hown

omit [DecidableEq τ] in
theorem homes_inserted {row : ρ} (hk : k < s.next) : (inserted F s t row).homes k = s.homes k :=
  Function.update_of_ne hk.ne _ _

theorem inserted_undisturbed (hw : Wf F s) {row : ρ} (hj : j ≠ t) :
    Undisturbed j s (inserted F s t row) where
  own _ := Versions.own_put_other hj hw.next_free
  held _ _ := rfl
  cache _ := rfl
  snap := rfl
  there _ := Iff.rfl
  next := Nat.le_succ _
  homes _ hk := homes_inserted hk

theorem inserted_wf (hw : Wf F s) {row : ρ} : Wf F (inserted F s t row) where
  committed_lt k hk := hw.committed_lt k (Nat.le_of_succ_le hk)
  own_lt j k hk := by
    have hne : k ≠ s.next := by
      have : s.next + 1 ≤ k := hk
      omega
    have hold : (inserted F s t row).rows.own j k = s.rows.own j k := Versions.own_put_of_ne hne
    rw [hold]
    exact hw.own_lt j k (Nat.le_of_succ_le hk)
  snap_lt j p rows h k hk := hw.snap_lt j p rows h k (Nat.le_of_succ_le hk)
  home_committed k r hr := by
    have hk : k < s.next := by
      by_contra hle
      have hnone := hw.committed_lt k (by omega)
      exact absurd (hnone.symm.trans hr) (by simp)
    rw [homes_inserted hk]
    exact hw.home_committed k r hr
  home_own j k r hr := by
    by_cases hk : k = s.next
    · subst hk
      by_cases hj : j = t
      · subst hj
        have hself : some (some row) = some (some r) := Versions.own_put_self.symm.trans hr
        obtain rfl := Option.some.inj (Option.some.inj hself)
        simp [inserted]
      · have hold : s.rows.own j s.next = some (some r) :=
          (Versions.own_put_other hj hw.next_free).symm.trans hr
        rw [hw.own_lt j s.next (le_refl _)] at hold
        cases hold
    · have hold : s.rows.own j k = some (some r) := (Versions.own_put_of_ne hk).symm.trans hr
      rw [homes_inserted (hw.own_lt_next (t := j) (by simp [hold]))]
      exact hw.home_own j k r hold
  cache := hw.cache

theorem inserted_only {row : ρ} (ho : Only t (F.home row) s) :
    Only t (F.home row) (inserted F s t row) := by
  intro k hk
  by_cases hnew : k = s.next
  · subst hnew
    exact ⟨Nat.lt_succ_self _, by simp [inserted]⟩
  · have hold : (inserted F s t row).rows.own t k = s.rows.own t k := Versions.own_put_of_ne hnew
    rw [hold] at hk
    obtain ⟨hlt, hhome⟩ := ho k hk
    exact ⟨Nat.lt_succ_of_lt hlt, (homes_inserted hlt).trans hhome⟩

end insert

/-! ### The cached values -/

variable [DecidableEq π]

/-- Every cached value is the sum over the committed rows. -/
def Fresh (F : Formula π ρ β α) (s : Cached τ π ρ α) : Prop :=
  ∀ p x, s.cache.committed p = some x → F.Sums s.rows.committed p x

omit [DecidableEq τ] in
theorem empty_fresh {cache : π → Option α} (h : ∀ p x, cache p = some x → x = F.sum []) :
    Fresh F (empty cache : Cached τ π ρ α) :=
  fun p x hx => ⟨0, fun _ _ => rfl, h p x hx⟩

/-- What `t` wrote to the cache is the sum over its snapshot and its own rows. -/
def Written (F : Formula π ρ β α) (t : τ) (s : Cached τ π ρ α) : Prop :=
  ∀ p a, s.cache.own t p = some a →
    ∃ rows x, s.snap t = some (p, rows) ∧ a = some x ∧ F.Sums (s.rows.overlay t rows) p x

/-- Where `t` recomputed nothing, its rows count with what they counted with before. -/
def Covers (F : Formula π ρ β α) (t : τ) (s : Cached τ π ρ α) : Prop :=
  ∀ k v, s.rows.own t k = some v → ∀ p, s.cache.committed p ≠ none → s.cache.own t p = none →
    v.bind (F.part p) = (s.rows.committed k).bind (F.part p)

/-- The rows of the owner that `t` recomputes are still those of its snapshot. -/
def settled [DecidableEq β] (F : Formula π ρ β α) (t : τ) (s : Cached τ π ρ α) : Bool :=
  (s.snap t).all fun q => (List.range s.next).all fun k =>
    (q.2 k).bind (F.part q.1) = (s.rows.committed k).bind (F.part q.1)

theorem settled_at [DecidableEq β] {rows : ℕ → Option ρ} (hw : Wf F s) (h : settled F t s)
    (hsnap : s.snap t = some (p, rows)) (k : ℕ) :
    (rows k).bind (F.part p) = (s.rows.committed k).bind (F.part p) := by
  by_cases hk : k < s.next
  · simp only [settled, hsnap, Option.all_some, List.all_eq_true, List.mem_range,
      decide_eq_true_eq] at h
    exact h k hk
  · rw [hw.snap_lt t p rows hsnap k (by omega), hw.committed_lt k (by omega)]

/-- **The rule of the cache: a transaction whose snapshot is still current when it commits
leaves every cached value right.** -/
theorem commit_fresh [DecidableEq β] (hw : Wf F s) (h : Fresh F s) (hwritten : Written F t s)
    (hcovers : Covers F t s) (hsettled : settled F t s) : Fresh F (s.commit t) := by
  intro p x hx
  have hseen : s.cache.seen t p = some x := hx
  show F.Sums (s.rows.seen t) p x
  cases hown : s.cache.own t p with
  | some a =>
      obtain ⟨rows, y, hsnap, rfl, hsums⟩ := hwritten p a hown
      obtain rfl : y = x := by
        rw [Versions.seen_of_own hown] at hseen
        exact Option.some.inj hseen
      refine hsums.congr (fun k hk => hw.seen_lt hk) fun k => ?_
      cases hk : s.rows.own t k with
      | some v => simp only [Versions.overlay, Versions.seen, hk, Option.getD_some]
      | none =>
          simp only [Versions.overlay, Versions.seen, hk, Option.getD_none]
          exact settled_at hw hsettled hsnap k
  | none =>
      rw [Versions.seen_of_own_none hown] at hseen
      refine (h p x hseen).congr (fun k hk => hw.seen_lt hk) fun k => ?_
      cases hk : s.rows.own t k with
      | none => rw [Versions.seen_of_own_none hk]
      | some v =>
          rw [Versions.seen_of_own hk]
          exact (hcovers k v hk p (by simp [hseen]) hown).symm

theorem Written.stable (h : Written F t s) (hu : Undisturbed t s s') : Written F t s' := by
  intro p a ha
  rw [hu.cache] at ha
  obtain ⟨rows, x, hsnap, rfl, hsums⟩ := h p a ha
  refine ⟨rows, x, hu.snap.trans hsnap, rfl, ?_⟩
  have hover : s'.rows.overlay t rows = s.rows.overlay t rows := by
    funext k
    rw [Versions.overlay, hu.own, Versions.overlay]
  rw [hover]
  exact hsums

theorem Covers.stable (h : Covers F t s) (hu : Undisturbed t s s') : Covers F t s' := by
  intro k v hk p hp hnone
  rw [hu.own] at hk
  rw [hu.cache] at hnone
  rw [hu.held k (by simp [hk])]
  exact h k v hk p (fun hc => hp ((hu.there p).mpr hc)) hnone

theorem Untouched.covers (h : Untouched t s) : Covers F t s := by
  intro k v hk
  rw [h.1 k] at hk
  cases hk

theorem Unwritten.written (h : Unwritten t s) : Written F t s := by
  intro p a ha
  rw [h p] at ha
  cases ha

theorem part_of_home {r : ρ} {h : Option π} (hr : F.home r = h) (hne : h ≠ some p) :
    F.part p r = none := by
  rw [Formula.part, if_neg]
  rw [hr]
  exact hne

/-- Who changed rows of one owner only, and recomputed it, covers its changes. -/
theorem Only.covers {h : Option π} (hw : Wf F s) (ho : Only t h s)
    (hp : ∀ p, h = some p → s.cache.committed p ≠ none → s.cache.own t p ≠ none) :
    Covers F t s := by
  intro k v hk p hthere hnone
  have hne : s.homes k ≠ some p := by
    intro hc
    rw [(ho k (by simp [hk])).2] at hc
    exact hp p hc hthere hnone
  have hold : (s.rows.committed k).bind (F.part p) = none := by
    cases hr : s.rows.committed k with
    | none => rfl
    | some r => exact part_of_home (hw.home_committed k r hr) hne
  rw [hold]
  cases v with
  | none => rfl
  | some r => exact part_of_home (hw.home_own t k r hk) hne

/-- A change that a row counts the same with needs no recompute. -/
theorem writeRow_covers {f : ρ → ρ} {found : Bool} (ht : Untouched t s)
    (hf : ∀ p r, F.part p (f r) = F.part p r)
    (h : s.writeRow t k (fun r => some (f r)) = some (found, s')) : Covers F t s' := by
  rcases writeRow_ok h with rfl | ⟨r, hr, hfree, rfl⟩
  · exact ht.covers
  · intro i v hv p hthere hnone
    by_cases hi : i = k
    · subst hi
      rw [Versions.own_put_self] at hv
      rw [Versions.seen_of_own_none (ht.1 i)] at hr
      rw [← Option.some.inj hv]
      simp only [Versions.committed_put, hr, Option.bind_some]
      exact hf p r
    · rw [Versions.own_put_of_ne hi, ht.1 i] at hv
      cases hv

/-! ### The recompute -/

section recompute

variable {lock : π → Bool}

theorem writeCache_ok (h : s.writeCache F lock t = some s') :
    ∃ p rows, s.snap t = some (p, rows) ∧ lock p = true ∧
      (s.cache.seen t p = none ∧ s' = s ∨ s.cache.seen t p ≠ none ∧
        s' = { s with
          cache := s.cache.put t p (some (F.sum (F.values s.next (s.rows.overlay t rows) p))) }) := by
  unfold writeCache at h
  split at h
  · cases h
  rename_i p rows hsnap
  split at h
  · rename_i hlock
    refine ⟨p, rows, hsnap, hlock, ?_⟩
    split at h
    · rename_i hnone
      exact .inl ⟨hnone, (Option.some.inj h).symm⟩
    · rename_i x hx
      exact .inr ⟨by simp [hx], (Option.some.inj h).symm⟩
  · cases h

/-- A lock on the cached row keeps the others from writing it. -/
theorem writeCache_undisturbed (hlock : ∀ p, lock p = true → s.cache.free t p)
    (h : s.writeCache F lock t = some s') (hj : j ≠ t) : Undisturbed j s s' := by
  obtain ⟨p, rows, -, hp, ⟨-, rfl⟩ | ⟨-, rfl⟩⟩ := writeCache_ok h
  · exact .refl j s'
  · exact { Undisturbed.refl j s with cache := fun _ => Versions.own_put_other hj (hlock p hp) }

omit [DecidableEq π] in
/-- A cached row that is seen is committed: it is never new. -/
theorem Wf.cache_seen (hw : Wf F s) (h : s.cache.seen t p ≠ none) : s.cache.committed p ≠ none := by
  cases hown : s.cache.own t p with
  | none => rwa [Versions.seen_of_own_none hown] at h
  | some a => exact (hw.cache t p a hown).2

theorem writeCache_wf (hw : Wf F s) (hlock : ∀ p, lock p = true → s.cache.free t p)
    (h : s.writeCache F lock t = some s') : Wf F s' := by
  obtain ⟨p, rows, -, hp, ⟨-, rfl⟩ | ⟨hseen, rfl⟩⟩ := writeCache_ok h
  · exact hw
  · refine { hw with cache := fun j q a ha => ?_ }
    by_cases hj : j = t
    · subst hj
      by_cases hq : q = p
      · subst hq
        simp only [Versions.own_put_self, Option.some.injEq] at ha
        exact ⟨by simp [← ha], hw.cache_seen hseen⟩
      · simp only [Versions.own_put_of_ne hq] at ha
        exact hw.cache j q a ha
    · simp only [Versions.own_put_other hj (hlock p hp)] at ha
      exact hw.cache j q a ha

omit [DecidableEq π] in
theorem snapped_wf (hw : Wf F s) : Wf F (s.snapped t p) := by
  refine { hw with snap_lt := fun j q rows h k hk => ?_ }
  by_cases hj : j = t
  · subst hj
    simp only [snapped, Function.update_self, Option.some.injEq, Prod.mk.injEq] at h
    rw [← h.2]
    exact hw.committed_lt k hk
  · have hold : s.snap j = some (q, rows) := (Function.update_of_ne hj _ _).symm.trans h
    exact hw.snap_lt j q rows hold k hk

omit [DecidableEq π] in
theorem snap_snapped : (s.snapped t p).snap t = some (p, s.rows.committed) := by
  simp [snapped]

omit [DecidableEq π] in
theorem Unwritten.snapped (h : Unwritten t s) : Unwritten t (s.snapped t p) := h

omit [DecidableEq π] in
theorem Only.snapped {h : Option π} (ho : Only t h s) : Only t h (s.snapped t p) := ho

omit [DecidableEq π] in
theorem snapped_undisturbed (hj : j ≠ t) : Undisturbed j s (s.snapped t p) :=
  { Undisturbed.refl j s with snap := Function.update_of_ne hj _ _ }

/-- **A recompute writes the sum over the snapshot and the transaction's own rows.** -/
theorem writeCache_written (hw : Wf F s) (hu : Unwritten t s)
    (h : s.writeCache F lock t = some s') : Written F t s' := by
  obtain ⟨p, rows, hsnap, -, ⟨-, rfl⟩ | ⟨-, rfl⟩⟩ := writeCache_ok h
  · exact hu.written
  · intro q a ha
    by_cases hq : q = p
    · subst hq
      simp only [Versions.own_put_self, Option.some.injEq] at ha
      refine ⟨rows, _, hsnap, ha.symm, s.next, fun k hk => ?_, rfl⟩
      simp only [Versions.overlay, hw.own_lt t k hk, Option.getD_none]
      exact hw.snap_lt t q rows hsnap k hk
    · simp only [Versions.own_put_of_ne hq] at ha
      rw [hu q] at ha
      cases ha

/-- After its recompute a transaction covers what it changed. -/
theorem writeCache_covers {rows : ℕ → Option ρ} (hw : Wf F s) (hu : Unwritten t s)
    (ho : Only t (some p) s) (hsnap : s.snap t = some (p, rows))
    (hlock : ∀ p, lock p = true → s.cache.free t p)
    (h : s.writeCache F lock t = some s') : Covers F t s' := by
  have hw' : Wf F s' := writeCache_wf hw hlock h
  obtain ⟨q, rows', hsnap', -, hend⟩ := writeCache_ok h
  obtain ⟨rfl, -⟩ := Prod.mk.inj (Option.some.inj (hsnap.symm.trans hsnap'))
  rcases hend with ⟨hnone, rfl⟩ | ⟨-, rfl⟩
  · refine Only.covers hw' ho fun q hq hthere => ?_
    obtain rfl := Option.some.inj hq
    rw [Versions.seen_of_own_none (hu p)] at hnone
    exact absurd hnone hthere
  · have ho' : Only t (some p) { s with
        cache := s.cache.put t p (some (F.sum (F.values s.next (s.rows.overlay t rows') p))) } := ho
    refine ho'.covers hw' fun q hq _ => ?_
    obtain rfl := Option.some.inj hq
    simp

end recompute

/-! ### The end of a transaction -/

omit [DecidableEq π] in
theorem rollback_wf (hw : Wf F s) : Wf F (s.rollback t) where
  committed_lt := hw.committed_lt
  own_lt j k hk := by
    by_cases hj : j = t
    · subst hj
      exact Versions.own_rollback_self
    · exact (Versions.own_rollback_other hj).trans (hw.own_lt j k hk)
  snap_lt j q rows h k hk := by
    by_cases hj : j = t
    · subst hj
      simp [rollback] at h
    · have hold : s.snap j = some (q, rows) := (Function.update_of_ne hj _ _).symm.trans h
      exact hw.snap_lt j q rows hold k hk
  home_committed := hw.home_committed
  home_own j k r hr := by
    by_cases hj : j = t
    · subst hj
      simp [rollback] at hr
    · exact hw.home_own j k r ((Versions.own_rollback_other hj).symm.trans hr)
  cache j q a ha := by
    by_cases hj : j = t
    · subst hj
      simp [rollback] at ha
    · exact hw.cache j q a ((Versions.own_rollback_other hj).symm.trans ha)

omit [DecidableEq π] in
theorem rollback_undisturbed (hj : j ≠ t) : Undisturbed j s (s.rollback t) where
  own _ := Versions.own_rollback_other hj
  held _ _ := rfl
  cache _ := Versions.own_rollback_other hj
  snap := Function.update_of_ne hj _ _
  there _ := Iff.rfl
  next := le_refl _
  homes _ _ := rfl

omit [DecidableEq π] in
/-- A cached row is there after a commit exactly when it was before. -/
theorem Wf.there (hw : Wf F s) : s.cache.seen t p = none ↔ s.cache.committed p = none := by
  cases hown : s.cache.own t p with
  | none => rw [Versions.seen_of_own_none hown]
  | some a =>
      rw [Versions.seen_of_own hown]
      obtain ⟨ha, hp⟩ := hw.cache t p a hown
      exact ⟨fun h => absurd h ha, fun h => absurd h hp⟩

omit [DecidableEq π] in
theorem commit_wf (hw : Wf F s) : Wf F (s.commit t) where
  committed_lt k hk := hw.seen_lt hk
  own_lt := (rollback_wf hw).own_lt
  snap_lt := (rollback_wf hw).snap_lt
  home_committed k r hr := hw.home_seen hr
  home_own := (rollback_wf hw).home_own
  cache j q a ha := by
    obtain ⟨hne, hp⟩ := (rollback_wf hw).cache j q a ha
    exact ⟨hne, fun hnone => hp (hw.there.mp hnone)⟩

omit [DecidableEq π] in
theorem commit_undisturbed (hw : Wf F s) (hj : j ≠ t) : Undisturbed j s (s.commit t) where
  own _ := Versions.own_commit_other hj
  held k hk := by
    obtain ⟨v, hv⟩ := Option.ne_none_iff_exists'.mp hk
    have hnone : s.rows.own t k = none := by
      cases hown : s.rows.own t k with
      | none => rfl
      | some w => exact absurd (Versions.own_inj hv hown) hj
    exact Versions.seen_of_own_none hnone
  cache _ := Versions.own_commit_other hj
  snap := Function.update_of_ne hj _ _
  there _ := hw.there
  next := le_refl _
  homes _ _ := rfl

omit [DecidableEq π] in
theorem rollback_untouched : Untouched t (s.rollback t) :=
  ⟨fun _ => Versions.own_rollback_self, fun _ => Versions.own_rollback_self⟩

end Cached
