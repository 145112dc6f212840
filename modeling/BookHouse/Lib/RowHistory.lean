/-
What a log says of the rows of a table.

Every event is about rows.  A transaction holds back the events of what it has done until it
commits, as it holds back its versions, so a row and the events about it move together: what
ties a row to its events (`R`) is kept by a statement that ties the row it writes to the events it
adds.
-/
import BookHouse.Lib.Table

namespace Table

variable {τ ρ ε : Type*} [DecidableEq τ]

/-- `R` holds of every row and the events about it, committed or as a transaction sees them. -/
structure Traced (about : ℕ → ε → Bool) (R : ℕ → Option ρ → List ε → Prop) (t : Table τ ρ)
    (work : τ → List ε) (log : List ε) : Prop where
  committed : ∀ k, R k (t.committed k) (log.filter (about k))
  own : ∀ i k row, t.own i k = some row → R k row ((work i ++ log).filter (about k))
  idle : ∀ i k, t.own i k = none → (work i).filter (about k) = []

/-- No event is about any row. -/
def Neutral (about : ℕ → ε → Bool) (es : List ε) : Prop := ∀ k, es.filter (about k) = []

namespace Traced

variable {about : ℕ → ε → Bool} {R R' : ℕ → Option ρ → List ε → Prop} {t t' : Table τ ρ}
  {work work' : τ → List ε} {log new : List ε} {i j : τ} {k : ℕ} {r : ρ} {g : ℕ → ρ → Option ρ}

/-- What a transaction sees of a row goes with what it knows of it. -/
theorem seen (h : t.Traced about R work log) (i : τ) (k : ℕ) :
    R k (t.seen i k) ((work i ++ log).filter (about k)) := by
  cases hown : t.own i k with
  | none =>
      rw [seen_of_own_none hown, List.filter_append, h.idle i k hown]
      exact h.committed k
  | some row =>
      rw [seen_of_own hown]
      exact h.own i k row hown

theorem mono (h : t.Traced about R work log) (hR : ∀ k row es, R k row es → R' k row es) :
    t.Traced about R' work log :=
  ⟨fun k => hR k _ _ (h.committed k), fun i k row hown => hR k _ _ (h.own i k row hown), h.idle⟩

/-- Events about other things. -/
theorem neutral {log' : List ε} (h : t.Traced about R work log)
    (hlog : ∃ new, log' = new ++ log ∧ Neutral about new)
    (hwork : ∀ j, ∃ new, work' j = new ++ work j ∧ Neutral about new) :
    t.Traced about R work' log' := by
  obtain ⟨new, rfl, hnew⟩ := hlog
  refine ⟨fun k => ?_, fun j k row hown => ?_, fun j k hown => ?_⟩
  · rw [List.filter_append, hnew k]
    exact h.committed k
  · obtain ⟨more, hj, hmore⟩ := hwork j
    have hkept := h.own j k row hown
    rw [List.filter_append] at hkept
    rw [hj, List.filter_append, List.filter_append, List.filter_append, hmore k, hnew k]
    exact hkept
  · obtain ⟨more, hj, hmore⟩ := hwork j
    rw [hj, List.filter_append, hmore k, h.idle j k hown]
    rfl

theorem rollback (h : t.Traced about R work log) (hself : work' i = [])
    (hother : ∀ j, j ≠ i → work' j = work j) : (t.rollback i).Traced about R work' log := by
  refine ⟨h.committed, fun j k row hown => ?_, fun j k hown => ?_⟩
  · have hj : j ≠ i := by
      rintro rfl
      rw [own_rollback_self] at hown
      cases hown
    rw [own_rollback_other hj] at hown
    rw [hother j hj]
    exact h.own j k row hown
  · by_cases hj : j = i
    · rw [hj, hself]
      rfl
    · rw [own_rollback_other hj] at hown
      rw [hother j hj]
      exact h.idle j k hown

theorem commit (h : t.Traced about R work log) (hnew : Neutral about new) (hself : work' i = [])
    (hother : ∀ j, j ≠ i → work' j = work j) :
    (t.commit i).Traced about R work' (new ++ (work i ++ log)) := by
  refine ⟨fun k => ?_, fun j k row hown => ?_, fun j k hown => ?_⟩
  · rw [List.filter_append, hnew k]
    exact h.seen i k
  · have hj : j ≠ i := by
      rintro rfl
      rw [own_commit_self] at hown
      cases hown
    rw [own_commit_other hj] at hown
    -- the row is that of `j`, so `i` has done nothing to it
    have hnone : t.own i k = none := by
      cases hi : t.own i k with
      | none => rfl
      | some row' => exact absurd (own_inj hown hi) hj
    have hkept := h.own j k row hown
    rw [List.filter_append] at hkept
    rw [hother j hj, List.filter_append, List.filter_append, List.filter_append, hnew k,
      h.idle i k hnone]
    exact hkept
  · by_cases hj : j = i
    · rw [hj, hself]
      rfl
    · rw [own_commit_other hj] at hown
      rw [hother j hj]
      exact h.idle j k hown

/-- A statement on its own. -/
theorem updateNow (h : t.Traced about R work log) (hwrite : t.updateNow g = some t')
    (hR : ∀ k r r' es, t.committed k = some r → g k r = some r' → R k (some r) es →
      R k (some r') (new.filter (about k) ++ es))
    (hnew : ∀ k, (t.committed k).bind (g k) = none → new.filter (about k) = []) :
    t'.Traced about R work (new ++ log) := by
  refine ⟨fun k => ?_, fun j k row hown => ?_, fun j k hown => ?_⟩
  · have hkept := h.committed k
    rw [committed_updateNow hwrite, List.filter_append]
    cases hr : t.committed k with
    | none =>
        rw [hnew k (by rw [hr]; rfl)]
        rw [hr] at hkept
        exact hkept
    | some r =>
        rw [hr] at hkept
        cases hg : g k r with
        | none =>
            rw [hnew k (by rw [hr]; exact hg), Option.map_some, hg]
            exact hkept
        | some r' =>
            rw [Option.map_some, hg]
            exact hR k r r' _ hr hg hkept
  · rw [own_updateNow hwrite] at hown
    have hnone : (t.committed k).bind (g k) = none := by
      cases hw : (t.committed k).bind (g k) with
      | none => rfl
      | some r' =>
          obtain ⟨r, hr, hg⟩ := Option.bind_eq_some_iff.mp hw
          rw [own_of_idle (idle_of_updateNow hwrite hr hg)] at hown
          cases hown
    have hkept := h.own j k row hown
    rw [List.filter_append] at hkept
    rw [List.filter_append, List.filter_append, hnew k hnone]
    exact hkept
  · rw [own_updateNow hwrite] at hown
    exact h.idle j k hown

/-- A statement of a transaction. -/
theorem update (h : t.Traced about R work log) (hwrite : t.update i g = some t')
    (hR : ∀ k r r' es, t.seen i k = some r → g k r = some r' → R k (some r) es →
      R k (some r') (new.filter (about k) ++ es))
    (hnew : ∀ k, (t.seen i k).bind (g k) = none → new.filter (about k) = [])
    (hself : work' i = new ++ work i) (hother : ∀ j, j ≠ i → work' j = work j) :
    t'.Traced about R work' log := by
  refine ⟨fun k => ?_, fun j k row hown => ?_, fun j k hown => ?_⟩
  · rw [committed_update hwrite]
    exact h.committed k
  · by_cases hj : j = i
    · subst hj
      rw [own_update_self hwrite] at hown
      rw [hself, List.append_assoc, List.filter_append]
      cases hw : (t.seen j k).bind (g k) with
      | none =>
          rw [hw] at hown
          rw [hnew k hw]
          exact h.own j k row hown
      | some r' =>
          rw [hw] at hown
          obtain rfl := Option.some.inj hown
          obtain ⟨r, hr, hg⟩ := Option.bind_eq_some_iff.mp hw
          have hseen := h.seen j k
          rw [hr] at hseen
          exact hR k r r' _ hr hg hseen
    · rw [own_update_other hwrite hj] at hown
      rw [hother j hj]
      exact h.own j k row hown
  · by_cases hj : j = i
    · subst hj
      rw [own_update_self hwrite] at hown
      rw [hself, List.filter_append]
      cases hw : (t.seen j k).bind (g k) with
      | none =>
          rw [hw] at hown
          rw [hnew k hw, h.idle j k hown]
          rfl
      | some r' =>
          rw [hw] at hown
          cases hown
    · rw [own_update_other hwrite hj] at hown
      rw [hother j hj]
      exact h.idle j k hown

/-- A row that is new. -/
theorem insert (h : t.Traced about R work log)
    (hR : ∀ es, R t.next none es → R t.next (some r) es) :
    (t.insert i r).Traced about R work log := by
  refine ⟨h.committed, fun j k row hown => ?_, fun j k hown => ?_⟩
  · by_cases hk : k = t.next
    · subst hk
      have hseen := h.seen j t.next
      rw [seen_unborn (le_refl _)] at hseen
      by_cases hj : j = i
      · subst hj
        rw [own_insert_self] at hown
        obtain rfl := Option.some.inj hown
        exact hR _ hseen
      · rw [own_insert_other hj, own_unborn (le_refl _)] at hown
        cases hown
    · rw [own_insert_of_ne hk] at hown
      exact h.own j k row hown
  · refine h.idle j k ?_
    by_cases hj : j = i
    · subst hj
      by_cases hk : k = t.next
      · rw [hk, own_unborn (le_refl _)]
      · rwa [own_insert_of_ne hk] at hown
    · rwa [own_insert_other hj] at hown

end Traced

end Table
