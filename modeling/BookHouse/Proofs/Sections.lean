/-
One section stays open, and no section is deleted with something in it.

A call that has locked the sections holds every section there was when it looked, so of two such
calls whose sections still exist one holds the other's.  Hence at most one call at a time is a
`Master`: only it can hide or delete a section, and what it has counted stays until it commits.
A category, product or bundle that is being inserted keeps a lock on its section, so a section
that is being deleted gets nothing new.
-/
import BookHouse.Catalog.SectionDesk
import BookHouse.Lib.Prog

namespace BookHouse

open Prog

variable {s t : SectionDesk} {i j : TxId} {k id : SectionId}

namespace SectionDesk

/-- The section is committed and visible. -/
def Shown (s : SectionDesk) (k : SectionId) : Prop :=
  ∃ r, s.sections.committed k = some r ∧ r.isVisible

/-- The same in the eyes of a transaction. -/
def ShownTo (s : SectionDesk) (i : TxId) (k : SectionId) : Prop :=
  ∃ r, s.sections.seen i k = some r ∧ r.isVisible

/-- The row is deleted for good. -/
structure Gone (s : SectionDesk) (k : SectionId) : Prop where
  old : k < s.sections.next
  uncommitted : s.sections.committed k = none
  idle : ∀ i, s.sections.own i k = none

/-- The transaction has locked the sections it found, and one of them is its own to change. -/
def Master (s : SectionDesk) (i : TxId) : Prop :=
  ∃ ids, s.found i = some ids ∧
    (∃ id ∈ ids, (s.sections.committed id).isSome ∧ (s.sections.own i id).isSome) ∧
    ∀ k ∈ ids, (s.sections.committed k).isSome → (s.sections.own i k).isSome

/-- What every state satisfies. -/
structure Inv (s : SectionDesk) : Prop where
  visible : ∃ k, s.Shown k
  /-- of two lists of sections found, the later one has what is left of the earlier one -/
  compare : ∀ i j ids ids', s.found i = some ids → s.found j = some ids' →
    (∀ k ∈ ids, (s.sections.committed k).isSome → k ∈ ids') ∨
      ∀ k ∈ ids', (s.sections.committed k).isSome → k ∈ ids
  found : ∀ i ids, s.found i = some ids → ∀ k ∈ ids,
    (s.sections.committed k).isSome ∨ s.Gone k
  shares : ∀ l ∈ s.shares, (s.sections.committed l.2).isSome ∧
    ∀ j, j ≠ l.1 → s.sections.own j l.2 = none
  references : ∀ m c, s.contents.committed m = some c →
    (s.sections.committed c.sectionId).isSome
  inserted : ∀ i m c, s.contents.own i m = some (some c) →
    (i, c.sectionId) ∈ s.shares ∧ s.contents.committed m = none
  emptied : ∀ i k, s.sections.own i k = some none → ∀ m c, s.contents.seen i m = some c →
    c.sectionId ≠ k
  /-- only a category that has been deleted before is taken out -/
  cleared : ∀ i m, s.contents.own i m = some none → ∀ c, s.contents.committed m = some c →
    c.counts = false

/-- What the others leave alone. -/
structure Rely (i : TxId) (s t : SectionDesk) : Prop where
  found : t.found i = s.found i
  own : ∀ k, t.sections.own i k = s.sections.own i k
  kept : ∀ k, (s.sections.own i k).isSome → t.sections.committed k = s.sections.committed k
  gone : ∀ k, s.Gone k → t.Gone k
  known : ∀ k, (s.sections.committed k).isSome → (t.sections.committed k).isSome ∨ t.Gone k
  born : ∀ ids, s.found i = some ids → ∀ k ∈ ids, (t.sections.committed k).isSome →
    (s.sections.committed k).isSome
  shown : s.Master i → ∀ k, s.Shown k → t.Shown k

theorem Rely.master (h : Rely i s t) (hm : s.Master i) : t.Master i := by
  obtain ⟨ids, hfound, ⟨id, hid, hcommitted, hown⟩, hall⟩ := hm
  refine ⟨ids, h.found.trans hfound, ⟨id, hid, ?_, ?_⟩, fun k hk hck => ?_⟩
  · rw [h.kept id hown]
    exact hcommitted
  · rw [h.own]
    exact hown
  · rw [h.own]
    exact hall k hk (h.born ids hfound k hk hck)

theorem Rely.refl : Rely i s s :=
  ⟨rfl, fun _ => rfl, fun _ _ => rfl, fun _ h => h, fun _ h => .inl h, fun _ _ _ _ h => h,
    fun _ _ h => h⟩

theorem Rely.trans {u : SectionDesk} (h : Rely i s t) (h' : Rely i t u) : Rely i s u where
  found := h'.found.trans h.found
  own k := (h'.own k).trans (h.own k)
  kept k hk := (h'.kept k (by rw [h.own]; exact hk)).trans (h.kept k hk)
  gone k hk := h'.gone k (h.gone k hk)
  known k hk := (h.known k hk).elim (h'.known k) fun hg => .inr (h'.gone k hg)
  born ids hids k hk hck := h.born ids hids k hk (h'.born ids (h.found.trans hids) k hk hck)
  shown hm k hk := h'.shown (h.master hm) k (h.shown hm k hk)

/-- **At most one call can change which sections there are to see.** -/
theorem Inv.master_unique (h : s.Inv) (hi : s.Master i) (hj : s.Master j) : i = j := by
  obtain ⟨ids, hfound, ⟨id, hid, hcommitted, hown⟩, hall⟩ := hi
  obtain ⟨ids', hfound', ⟨id', hid', hcommitted', hown'⟩, hall'⟩ := hj
  rcases h.compare i j ids ids' hfound hfound' with hle | hle
  · obtain ⟨v, hv⟩ := Option.isSome_iff_exists.mp hown
    obtain ⟨v', hv'⟩ := Option.isSome_iff_exists.mp (hall' id (hle id hid hcommitted) hcommitted)
    exact Table.own_inj hv hv'
  · obtain ⟨v, hv⟩ := Option.isSome_iff_exists.mp (hall id' (hle id' hid' hcommitted') hcommitted')
    obtain ⟨v', hv'⟩ := Option.isSome_iff_exists.mp hown'
    exact Table.own_inj hv hv'

/-- What a call has to know before it commits: it hides nothing, or it is the master and sees a
section that stays visible. -/
def Commits (s : SectionDesk) (i : TxId) : Prop :=
  (∀ k, s.Shown k → s.ShownTo i k) ∨ (s.Master i ∧ ∃ k, s.ShownTo i k)

theorem ShownTo.of_own_none (h : s.sections.own i k = none) : s.ShownTo i k ↔ s.Shown k := by
  unfold ShownTo Shown
  rw [Table.seen_of_own_none h]

theorem ShownTo.stable_of_own (h : Rely i s t) (hown : (s.sections.own i k).isSome)
    (hk : s.ShownTo i k) : t.ShownTo i k := by
  obtain ⟨v, hv⟩ := Option.isSome_iff_exists.mp hown
  obtain ⟨r, hr, hvis⟩ := hk
  rw [Table.seen_of_own hv] at hr
  exact ⟨r, by rw [Table.seen_of_own ((h.own k).trans hv), hr], hvis⟩

theorem ShownTo.stable (h : Rely i s t) (hm : s.Master i) (hk : s.ShownTo i k) :
    t.ShownTo i k := by
  cases hown : s.sections.own i k with
  | some v => exact hk.stable_of_own h (by rw [hown]; rfl)
  | none =>
      rw [ShownTo.of_own_none ((h.own k).trans hown)]
      exact h.shown hm k ((ShownTo.of_own_none hown).mp hk)

theorem Commits.stable (h : Rely i s t) (hc : s.Commits i) : t.Commits i := by
  rcases hc with hall | ⟨hm, k, hk⟩
  · refine .inl fun k hk => ?_
    cases hown : s.sections.own i k with
    | none => exact (ShownTo.of_own_none ((h.own k).trans hown)).mpr hk
    | some v =>
        have hsome : (s.sections.own i k).isSome := by rw [hown]; rfl
        obtain ⟨r, hr, hvis⟩ := hk
        rw [h.kept k hsome] at hr
        exact (hall k ⟨r, hr, hvis⟩).stable_of_own h hsome
  · exact .inr ⟨h.master hm, k, hk.stable h hm⟩

/-! ### What a step does to the sections -/

/-- Nothing is committed and no list is made. -/
structure Same (i : TxId) (s t : SectionDesk) : Prop where
  found : t.found = s.found
  committed : t.sections.committed = s.sections.committed
  next : s.sections.next ≤ t.sections.next
  own : ∀ j, j ≠ i → ∀ k, t.sections.own j k = s.sections.own j k
  gone : ∀ k, s.Gone k → t.sections.own i k = none

theorem Same.gone' (h : Same i s t) (hk : s.Gone k) : t.Gone k := by
  refine ⟨lt_of_lt_of_le hk.old h.next, by rw [h.committed]; exact hk.uncommitted, fun j => ?_⟩
  rcases eq_or_ne j i with rfl | hj
  · exact h.gone k hk
  · rw [h.own j hj]
    exact hk.idle j

theorem Same.shown (h : Same i s t) (hk : s.Shown k) : t.Shown k := by
  unfold Shown
  rw [h.committed]
  exact hk

theorem Same.rely (h : Same i s t) (hj : j ≠ i) : Rely j s t where
  found := congrFun h.found j
  own := h.own j hj
  kept k _ := congrFun h.committed k
  gone _ hk := h.gone' hk
  known k hk := .inl (by rw [h.committed]; exact hk)
  born _ _ k _ hk := by rwa [h.committed] at hk
  shown _ _ hk := h.shown hk

/-- The part of the invariant that is about the sections alone. -/
theorem Same.inv (h : Same i s t) (hs : s.Inv)
    (hshares : ∀ l ∈ t.shares, (s.sections.committed l.2).isSome ∧
      ∀ j, j ≠ l.1 → t.sections.own j l.2 = none)
    (href : ∀ m c, t.contents.committed m = some c →
      (s.sections.committed c.sectionId).isSome)
    (hins : ∀ i m c, t.contents.own i m = some (some c) →
      (i, c.sectionId) ∈ t.shares ∧ t.contents.committed m = none)
    (hempty : ∀ i k, t.sections.own i k = some none → ∀ m c, t.contents.seen i m = some c →
      c.sectionId ≠ k)
    (hclear : ∀ i m, t.contents.own i m = some none → ∀ c, t.contents.committed m = some c →
      c.counts = false) : t.Inv where
  visible := hs.visible.imp fun _ hk => h.shown hk
  compare i j ids ids' hi hj := by
    rw [h.committed]
    rw [h.found] at hi hj
    exact hs.compare i j ids ids' hi hj
  found i ids hi k hk := by
    rw [h.found] at hi
    rw [h.committed]
    exact (hs.found i ids hi k hk).imp_right h.gone'
  shares l hl := by
    rw [h.committed]
    exact hshares l hl
  references m c hc := by
    rw [h.committed]
    exact href m c hc
  inserted := hins
  emptied := hempty
  cleared := hclear

/-- A write of one section that its transaction sees. -/
theorem write_keeps {sections : Table TxId SectionRow} {row : Option SectionRow} (hs : s.Inv)
    (hw : s.sections.write i k row = some sections) (hseen : (s.sections.seen i k).isSome)
    (hshare : ∀ l ∈ s.shares, l.2 = k → l.1 = i)
    (hempty : row = none → ∀ m c, s.contents.seen i m = some c → c.sectionId ≠ k) :
    Inv { s with sections } ∧ Same i s { s with sections } := by
  have hsame : Same i s { s with sections } := by
    refine ⟨rfl, Table.committed_write hw, (Table.next_write hw).ge,
      fun j hj m => Table.own_write_other hw hj, fun m hm => ?_⟩
    have hne : m ≠ k := by
      rintro rfl
      rw [Table.seen_of_own_none (hm.idle i), hm.uncommitted] at hseen
      cases hseen
    exact (Table.own_write_ne hw hne).trans (hm.idle i)
  refine ⟨hsame.inv hs (fun l hl => ⟨(hs.shares l hl).1, fun j hj => ?_⟩) hs.references
    hs.inserted (fun j m hjm => ?_) hs.cleared, hsame⟩
  · have hold := (hs.shares l hl).2 j hj
    by_cases hji : j = i
    · subst hji
      have hne : l.2 ≠ k := fun hk => hj (hshare l hl hk).symm
      exact (Table.own_write_ne hw hne).trans hold
    · exact (Table.own_write_other hw hji).trans hold
  · by_cases hji : j = i
    · subst hji
      by_cases hmk : m = k
      · subst hmk
        have hrow : row = none :=
          Option.some.inj ((Table.own_write_self hw).symm.trans hjm)
        exact hempty hrow
      · exact hs.emptied j m ((Table.own_write_ne hw hmk).symm.trans hjm)
    · exact hs.emptied j m ((Table.own_write_other hw hji).symm.trans hjm)

theorem not_shared (h : ¬s.shared i id = true) : ∀ l ∈ s.shares, l.2 = id → l.1 = i := by
  intro l hl hid
  by_contra hne
  refine h (List.any_eq_true.mpr ⟨l, hl, ?_⟩)
  simp [hne, hid]

theorem mem_contentsOf {c : SectionContent} {m : ℕ} (h : s.contents.seen i m = some c) :
    c ∈ s.contentsOf i := by
  refine List.mem_filterMap.mpr ⟨m, List.mem_range.mpr ?_, h⟩
  by_contra hge
  rw [Table.seen_unborn (Nat.le_of_not_lt hge)] at h
  cases h

theorem mem_rowsOf {r : SectionRow} : (k, r) ∈ s.rowsOf i ↔ s.sections.seen i k = some r := by
  simp only [rowsOf, List.mem_filterMap, List.mem_range, Option.map_eq_some_iff, Prod.mk.injEq]
  constructor
  · rintro ⟨m, -, r', hr, rfl, rfl⟩
    exact hr
  · intro h
    refine ⟨k, ?_, r, h, rfl, rfl⟩
    by_contra hge
    rw [Table.seen_unborn (Nat.le_of_not_lt hge)] at h
    cases h

theorem Same.refl : Same i s s := ⟨rfl, rfl, le_rfl, fun _ _ _ => rfl, fun _ hk => hk.idle i⟩

theorem lock_keeps (hs : s.Inv) (h : s.lock i id = some t) : t.Inv ∧ Same i s t := by
  unfold SectionDesk.lock at h
  split at h
  · obtain rfl := Option.some.inj h
    exact ⟨hs, Same.refl⟩
  next row hrow =>
    split at h
    · cases h
    next hshare =>
      obtain ⟨sections, hw, rfl⟩ := Option.map_eq_some_iff.mp h
      exact write_keeps hs hw (by rw [hrow]; rfl) (not_shared hshare) fun hc => by cases hc

/-- A locked section is shared with nobody else. -/
theorem Inv.shares_of_own (hs : s.Inv) (hown : (s.sections.own i k).isSome) :
    ∀ l ∈ s.shares, l.2 = k → l.1 = i := by
  intro l hl hk
  by_contra hne
  have hnone := (hs.shares l hl).2 i (Ne.symm hne)
  rw [hk] at hnone
  rw [hnone] at hown
  cases hown

theorem update_keeps {dto : UpdateSectionDto} {r : Except Fault SectionRow} (hs : s.Inv)
    (hown : (s.sections.own i id).isSome) (h : s.update i id dto = some (r, t)) :
    t.Inv ∧ Same i s t := by
  unfold SectionDesk.update at h
  split at h
  · obtain ⟨-, rfl⟩ := Prod.mk.inj (Option.some.inj h)
    exact ⟨hs, Same.refl⟩
  next row hrow =>
    obtain ⟨sections, hw, heq⟩ := Option.map_eq_some_iff.mp h
    obtain ⟨-, rfl⟩ := Prod.mk.inj heq
    exact write_keeps hs hw (by rw [hrow]; rfl) (hs.shares_of_own hown) fun hc => by cases hc

theorem delete_keeps {r : Except Fault Unit} (hs : s.Inv) (h : s.delete i id = some (r, t)) :
    t.Inv ∧ Same i s t := by
  unfold SectionDesk.delete at h
  split at h
  · obtain ⟨-, rfl⟩ := Prod.mk.inj (Option.some.inj h)
    exact ⟨hs, Same.refl⟩
  next row hrow =>
    split at h
    · cases h
    next hshare =>
      split at h
      · obtain ⟨-, rfl⟩ := Prod.mk.inj (Option.some.inj h)
        exact ⟨hs, Same.refl⟩
      next hany =>
        obtain ⟨sections, hw, heq⟩ := Option.map_eq_some_iff.mp h
        obtain ⟨-, rfl⟩ := Prod.mk.inj heq
        refine write_keeps hs hw (by rw [hrow]; rfl) (not_shared hshare) fun _ m c hc hid => ?_
        exact hany (List.any_eq_true.mpr ⟨c, mem_contentsOf hc, decide_eq_true hid⟩)

theorem insert_keeps {row : SectionRow} {r : Except Fault SectionId} (hs : s.Inv)
    (h : s.insert i row = some (r, t)) : t.Inv ∧ Same i s t := by
  unfold SectionDesk.insert at h
  split at h
  · cases h
  split at h
  · obtain ⟨-, rfl⟩ := Prod.mk.inj (Option.some.inj h)
    exact ⟨hs, Same.refl⟩
  obtain ⟨-, rfl⟩ := Prod.mk.inj (Option.some.inj h)
  have hother : ∀ {m}, m < s.sections.next → ∀ j,
      (s.sections.insert i row).own j m = s.sections.own j m :=
    fun hm j => Table.own_insert_of_ne hm.ne
  have hsame : Same i s { s with sections := s.sections.insert i row } :=
    ⟨rfl, rfl, Nat.le_succ _, fun j hj m => Table.own_insert_other hj, fun m hm =>
      (hother hm.old i).trans (hm.idle i)⟩
  refine ⟨hsame.inv hs (fun l hl => ?_) hs.references hs.inserted (fun j m hjm => ?_) hs.cleared,
    hsame⟩
  · obtain ⟨hcommitted, hnone⟩ := hs.shares l hl
    obtain ⟨r, hr⟩ := Option.isSome_iff_exists.mp hcommitted
    exact ⟨hcommitted, fun j hj => (hother (Table.lt_next hr) j).trans (hnone j hj)⟩
  · have hjm' : (s.sections.insert i row).own j m = some none := hjm
    by_cases hm : m = s.sections.next
    · subst hm
      by_cases hj : j = i
      · subst hj
        rw [Table.own_insert_self] at hjm'
        cases Option.some.inj hjm'
      · rw [Table.own_insert_other hj, Table.own_unborn (le_refl _)] at hjm'
        cases hjm'
    · rw [Table.own_insert_of_ne hm] at hjm'
      exact hs.emptied j m hjm'

theorem insertContent_keeps {c : SectionContent} {r : Except Fault Unit} (hs : s.Inv)
    (hown : ∀ k, s.sections.own i k = none) (h : s.insertContent i c = some (r, t)) :
    t.Inv ∧ Same i s t := by
  unfold SectionDesk.insertContent at h
  split at h
  · obtain ⟨-, rfl⟩ := Prod.mk.inj (Option.some.inj h)
    exact ⟨hs, Same.refl⟩
  next row hrow =>
    split at h
    next hfree =>
      obtain ⟨-, rfl⟩ := Prod.mk.inj (Option.some.inj h)
      have hsame : Same i s { s with
          contents := s.contents.insert i c, shares := (i, c.sectionId) :: s.shares } :=
        ⟨rfl, rfl, le_rfl, fun _ _ _ => rfl, fun m hm => hm.idle i⟩
      refine ⟨hsame.inv hs (fun l hl => ?_) hs.references (fun j m c' hc' => ?_)
        (fun j m hjm m' c' hc' => ?_) fun j m hjm c' hc' => ?_, hsame⟩
      · rcases List.mem_cons.mp hl with rfl | hl
        · rw [Table.seen_of_own_none (hown _)] at hrow
          exact ⟨by rw [hrow]; rfl, fun j hj => Versions.own_of_free hj hfree⟩
        · exact hs.shares l hl
      · have hown' : (s.contents.insert i c).own j m = some (some c') := hc'
        by_cases hm : m = s.contents.next
        · subst hm
          by_cases hj : j = i
          · subst hj
            rw [Table.own_insert_self] at hown'
            obtain rfl := Option.some.inj (Option.some.inj hown')
            exact ⟨List.mem_cons_self, Table.committed_next⟩
          · rw [Table.own_insert_other hj, Table.own_unborn (le_refl _)] at hown'
            cases hown'
        · rw [Table.own_insert_of_ne hm] at hown'
          exact (hs.inserted j m c' hown').imp_left (List.mem_cons_of_mem _)
      · have hjm' : s.sections.own j m = some none := hjm
        have hji : j ≠ i := by
          rintro rfl
          rw [hown] at hjm'
          cases hjm'
        refine hs.emptied j m hjm' m' c' ?_
        have hsee : (s.contents.insert i c).seen j m' = s.contents.seen j m' :=
          Table.seen_congr (Table.own_insert_other hji) rfl
        exact hsee ▸ hc'
      · have hown' : (s.contents.insert i c).own j m = some none := hjm
        have hold : s.contents.committed m = some c' := hc'
        rw [Table.own_insert_of_ne (Table.lt_next hold).ne] at hown'
        exact hs.cleared j m hown' c' hc'
    next => cases h

theorem deleteContents_keeps {p : SectionContent → Bool} {contents : Table TxId SectionContent}
    (hs : s.Inv) (hcounts : ∀ c, p c → c.counts = false)
    (h : s.contents.deleteWhere i p = some contents) :
    Inv { s with contents } ∧ Same i s { s with contents } := by
  have hsame : Same i s { s with contents } :=
    ⟨rfl, rfl, le_rfl, fun _ _ _ => rfl, fun m hm => hm.idle i⟩
  have hcommitted : ∀ m, contents.committed m = s.contents.committed m :=
    congrFun (Table.committed_deleteWhere h)
  -- what is seen of a row afterwards was seen before
  have hseen : ∀ j m c, contents.seen j m = some c → s.contents.seen j m = some c := by
    intro j m c hc
    by_cases hj : j = i
    · subst hj
      have hown := Table.own_deleteWhere_self (k := m) h
      by_cases hp : (s.contents.seen j m).any p = true
      · rw [if_pos hp] at hown
        rw [Table.seen_of_own hown] at hc
        cases hc
      · rw [if_neg hp] at hown
        rw [Table.seen_congr hown (hcommitted m)] at hc
        exact hc
    · rw [Table.seen_congr (Table.own_deleteWhere_other h hj) (hcommitted m)] at hc
      exact hc
  refine ⟨hsame.inv hs hs.shares (fun m c hc => hs.references m c ?_) (fun j m c hc => ?_)
    (fun j m hjm m' c hc => hs.emptied j m hjm m' c (hseen j m' c hc))
    fun j m hjm c hc => ?_, hsame⟩
  · rw [← hcommitted]
    exact hc
  · by_cases hj : j = i
    · subst hj
      have hown := Table.own_deleteWhere_self (k := m) h
      by_cases hp : (s.contents.seen j m).any p = true
      · rw [if_pos hp] at hown
        cases Option.some.inj (hown.symm.trans hc)
      · rw [if_neg hp] at hown
        exact (hs.inserted j m c (hown.symm.trans hc)).imp_right (hcommitted m).trans
    · exact (hs.inserted j m c ((Table.own_deleteWhere_other h hj).symm.trans hc)).imp_right
        (hcommitted m).trans
  · have hc' : s.contents.committed m = some c := (hcommitted m).symm.trans hc
    by_cases hj : j = i
    · subst hj
      have hown := Table.own_deleteWhere_self (k := m) h
      by_cases hp : (s.contents.seen j m).any p = true
      · cases hold : s.contents.own j m with
        | none =>
            rw [Table.seen_of_own_none hold, hc'] at hp
            exact hcounts c hp
        | some v =>
            cases v with
            | none => exact hs.cleared j m hold c hc'
            | some c' =>
                rw [(hs.inserted j m c' hold).2] at hc'
                cases hc'
      · rw [if_neg hp] at hown
        exact hs.cleared j m (hown.symm.trans hjm) c hc'
    · exact hs.cleared j m ((Table.own_deleteWhere_other h hj).symm.trans hjm) c hc'

/-- The rows that a transaction without versions finds are the committed ones. -/
theorem lockAll_keeps (hs : s.Inv) (hown : ∀ k, s.sections.own i k = none) :
    let ids := (s.rowsOf i).map (·.1)
    Inv { s with found := Function.update s.found i (some ids) } ∧
      (∀ j, j ≠ i → Rely j s { s with found := Function.update s.found i (some ids) }) ∧
      ∀ k, k ∈ ids ↔ (s.sections.committed k).isSome := by
  intro ids
  have hids : ∀ k, k ∈ ids ↔ (s.sections.committed k).isSome := fun k => by
    rw [List.mem_map, Option.isSome_iff_exists]
    constructor
    · rintro ⟨⟨m, r⟩, hmem, rfl⟩
      rw [mem_rowsOf, Table.seen_of_own_none (hown m)] at hmem
      exact ⟨r, hmem⟩
    · rintro ⟨r, hr⟩
      exact ⟨(k, r), mem_rowsOf.mpr (by rw [Table.seen_of_own_none (hown k)]; exact hr), rfl⟩
  refine ⟨⟨hs.visible, fun a b la lb ha hb => ?_, fun a la ha k hk => ?_, hs.shares, hs.references,
    hs.inserted, hs.emptied, hs.cleared⟩, fun j hj => ?_, hids⟩
  · have ha' : Function.update s.found i (some ids) a = some la := ha
    have hb' : Function.update s.found i (some ids) b = some lb := hb
    by_cases hbi : b = i
    · subst hbi
      rw [Function.update_self] at hb'
      obtain rfl := Option.some.inj hb'
      exact .inl fun k _ hk => (hids k).mpr hk
    · rw [Function.update_of_ne hbi] at hb'
      by_cases hai : a = i
      · subst hai
        rw [Function.update_self] at ha'
        obtain rfl := Option.some.inj ha'
        exact .inr fun k _ hk => (hids k).mpr hk
      · rw [Function.update_of_ne hai] at ha'
        exact hs.compare a b la lb ha' hb'
  · have hgone : ∀ k, s.Gone k →
        Gone { s with found := Function.update s.found i (some ids) } k :=
      fun k hg => ⟨hg.old, hg.uncommitted, hg.idle⟩
    have ha' : Function.update s.found i (some ids) a = some la := ha
    by_cases hai : a = i
    · subst hai
      rw [Function.update_self] at ha'
      obtain rfl := Option.some.inj ha'
      exact .inl ((hids k).mp hk)
    · rw [Function.update_of_ne hai] at ha'
      exact (hs.found a la ha' k hk).imp_right (hgone k)
  · exact ⟨Function.update_of_ne hj _ _, fun _ => rfl, fun _ _ => rfl,
      fun k hg => ⟨hg.old, hg.uncommitted, hg.idle⟩, fun _ hk => .inl hk, fun _ _ _ _ hk => hk,
      fun _ _ hk => hk⟩

theorem mem_unlock {l : TxId × SectionId} : l ∈ s.unlock i ↔ l ∈ s.shares ∧ l.1 ≠ i := by
  simp [unlock]

theorem rollback_keeps (hs : s.Inv) : (s.rollback i).Inv ∧ Same i s (s.rollback i) := by
  have hsame : Same i s (s.rollback i) :=
    ⟨rfl, rfl, le_rfl, fun j hj _ => Table.own_rollback_other hj,
      fun _ _ => Table.own_rollback_self⟩
  have howned : ∀ {j k v}, (s.rollback i).sections.own j k = some v →
      s.sections.own j k = some v := fun {j k v} h => by
    by_cases hj : j = i
    · subst hj
      cases Table.own_rollback_self.symm.trans h
    · exact (Table.own_rollback_other hj).symm.trans h
  refine ⟨hsame.inv hs (fun l hl => ?_) hs.references (fun j m c hc => ?_)
    (fun j k hjk m c hc => ?_) fun j m hjm c hc => ?_, hsame⟩
  · obtain ⟨hmem, -⟩ := mem_unlock.mp hl
    refine ⟨(hs.shares l hmem).1, fun j hj => ?_⟩
    cases hown : (s.rollback i).sections.own j l.2 with
    | none => rfl
    | some v =>
        cases ((hs.shares l hmem).2 j hj).symm.trans (howned hown)
  · have hj : j ≠ i := by
      rintro rfl
      cases Table.own_rollback_self.symm.trans hc
    obtain ⟨hmem, hnew⟩ := hs.inserted j m c ((Table.own_rollback_other hj).symm.trans hc)
    exact ⟨mem_unlock.mpr ⟨hmem, hj⟩, hnew⟩
  · have hj : j ≠ i := by
      rintro rfl
      cases Table.own_rollback_self.symm.trans hjk
    refine hs.emptied j k (howned hjk) m c ?_
    have hsee : (s.contents.rollback i).seen j m = s.contents.seen j m :=
      Table.seen_congr (Table.own_rollback_other hj) rfl
    exact hsee.symm.trans hc
  · have hj : j ≠ i := by
      rintro rfl
      cases Table.own_rollback_self.symm.trans hjm
    exact hs.cleared j m ((Table.own_rollback_other hj).symm.trans hjm) c hc

/-- A section that something references stays. -/
theorem Inv.seen_of_reference (hs : s.Inv) {m : ℕ} {c : SectionContent}
    (hc : s.contents.seen i m = some c) : (s.sections.seen i c.sectionId).isSome := by
  have hcommitted : (s.sections.committed c.sectionId).isSome := by
    cases hown : s.contents.own i m with
    | none =>
        rw [Table.seen_of_own_none hown] at hc
        exact hs.references m c hc
    | some v =>
        rw [Table.seen_of_own hown] at hc
        subst hc
        exact (hs.shares _ (hs.inserted i m c hown).1).1
  cases hown : s.sections.own i c.sectionId with
  | none =>
      rw [Table.seen_of_own_none hown]
      exact hcommitted
  | some v =>
      rw [Table.seen_of_own hown]
      cases v with
      | some r => rfl
      | none => exact absurd rfl (hs.emptied i _ hown m c hc)

theorem commit_gone (hk : s.Gone k) : (s.commit i).Gone k := by
  refine ⟨hk.old, (Table.seen_of_own_none (hk.idle i)).trans hk.uncommitted, fun j => ?_⟩
  by_cases hj : j = i
  · subst hj
    exact Table.own_commit_self
  · exact (Table.own_commit_other hj).trans (hk.idle j)

/-- After a commit a section that was there is there, or gone for good. -/
theorem commit_known (hk : (s.sections.committed k).isSome) :
    ((s.commit i).sections.committed k).isSome ∨ (s.commit i).Gone k := by
  show (s.sections.seen i k).isSome ∨ _
  obtain ⟨r, hr⟩ := Option.isSome_iff_exists.mp hk
  cases hown : s.sections.own i k with
  | none => exact .inl (by rw [Table.seen_of_own_none hown]; exact hk)
  | some v =>
      cases v with
      | some r' => exact .inl (by rw [Table.seen_of_own hown]; rfl)
      | none =>
          refine .inr ⟨(Table.lt_next hr : k < s.sections.next), Table.seen_of_own hown, fun j => ?_⟩
          by_cases hj : j = i
          · subst hj
            exact Table.own_commit_self
          · refine (Table.own_commit_other hj).trans ?_
            cases hother : s.sections.own j k with
            | none => rfl
            | some v' => exact absurd (Table.own_inj hother hown) hj

/-- A section found in a list is not committed anew. -/
theorem commit_born (hs : s.Inv) {ids : List SectionId} (hj : s.found j = some ids) (hk : k ∈ ids)
    (hc : ((s.commit i).sections.committed k).isSome) : (s.sections.committed k).isSome := by
  rcases hs.found j ids hj k hk with hcommitted | hgone
  · exact hcommitted
  · rw [(commit_gone (i := i) hgone).uncommitted] at hc
    cases hc

theorem commit_keeps (hs : s.Inv) (hc : s.Commits i) :
    (s.commit i).Inv ∧ ∀ j, j ≠ i → Rely j s (s.commit i) := by
  have hown : ∀ {j}, j ≠ i → ∀ k, (s.commit i).sections.own j k = s.sections.own j k :=
    fun hj _ => Table.own_commit_other hj
  have hfree : ∀ {j k}, j ≠ i → (s.sections.own j k).isSome → s.sections.own i k = none :=
    fun {j k} hj h => by
      obtain ⟨v, hv⟩ := Option.isSome_iff_exists.mp h
      cases hi : s.sections.own i k with
      | none => rfl
      | some v' => exact absurd (Table.own_inj hv hi) hj
  -- what another has written is committed as it was
  have hunwritten : ∀ {j m v}, j ≠ i → s.contents.own j m = some v →
      (s.commit i).contents.committed m = s.contents.committed m := fun {j m v} hj hv => by
    refine Table.seen_of_own_none ?_
    cases hi : s.contents.own i m with
    | none => rfl
    | some v' => exact absurd (Table.own_inj hv hi) hj
  have hvisible : ∃ k, (s.commit i).Shown k := by
    rcases hc with hall | ⟨-, k, hk⟩
    · obtain ⟨k, hk⟩ := hs.visible
      exact ⟨k, hall k hk⟩
    · exact ⟨k, hk⟩
  refine ⟨⟨hvisible, fun a b la lb ha hb => ?_, fun a la ha k hk => ?_, fun l hl => ?_,
    fun m c hm => hs.seen_of_reference hm, fun j m c hm => ?_, fun j k hjk m c hm => ?_,
    fun j m hjm c hm => ?_⟩, fun j hj => ?_⟩
  · exact (hs.compare a b la lb ha hb).imp
      (fun h k hk hck => h k hk (commit_born hs ha hk hck))
      fun h k hk hck => h k hk (commit_born hs hb hk hck)
  · rcases hs.found a la ha k hk with hcommitted | hgone
    · exact commit_known hcommitted
    · exact .inr (commit_gone hgone)
  · obtain ⟨hmem, hli⟩ := mem_unlock.mp hl
    obtain ⟨hcommitted, hnone⟩ := hs.shares l hmem
    refine ⟨?_, fun j hj => ?_⟩
    · show (s.sections.seen i l.2).isSome
      rw [Table.seen_of_own_none (hnone i (Ne.symm hli))]
      exact hcommitted
    · by_cases hji : j = i
      · subst hji
        exact Table.own_commit_self
      · exact (hown hji l.2).trans (hnone j hj)
  · have hj : j ≠ i := by
      rintro rfl
      cases Table.own_commit_self.symm.trans hm
    have hm' : s.contents.own j m = some (some c) := (Table.own_commit_other hj).symm.trans hm
    obtain ⟨hmem, hnew⟩ := hs.inserted j m c hm'
    exact ⟨mem_unlock.mpr ⟨hmem, hj⟩, (hunwritten hj hm').trans hnew⟩
  · have hj : j ≠ i := by
      rintro rfl
      cases Table.own_commit_self.symm.trans hjk
    have hjk' : s.sections.own j k = some none := (hown hj k).symm.trans hjk
    have hcontents : (s.contents.commit i).own j m = s.contents.own j m :=
      Table.own_commit_other hj
    have hm' : (s.contents.commit i).seen j m = some c := hm
    cases hold : s.contents.own j m with
    | some v =>
        rw [Table.seen_of_own (hcontents.trans hold)] at hm'
        exact hs.emptied j k hjk' m c (by rw [Table.seen_of_own hold]; exact hm')
    | none =>
        rw [Table.seen_of_own_none (hcontents.trans hold)] at hm'
        have hmi : s.contents.seen i m = some c := hm'
        cases hnew : s.contents.own i m with
        | none =>
            rw [Table.seen_of_own_none hnew] at hmi
            exact hs.emptied j k hjk' m c (by rw [Table.seen_of_own_none hold]; exact hmi)
        | some v =>
            -- what was inserted keeps its section from being deleted
            rw [Table.seen_of_own hnew] at hmi
            subst hmi
            rintro rfl
            rw [(hs.shares _ (hs.inserted i m c hnew).1).2 j hj] at hjk'
            cases hjk'
  · have hj : j ≠ i := by
      rintro rfl
      cases Table.own_commit_self.symm.trans hjm
    have hjm' : s.contents.own j m = some none := (Table.own_commit_other hj).symm.trans hjm
    exact hs.cleared j m hjm' c ((hunwritten hj hjm').symm.trans hm)
  · refine ⟨rfl, hown hj, fun k hk => Table.seen_of_own_none (hfree hj hk), fun k hk => commit_gone hk,
      fun k hk => commit_known hk, fun ids hids k hk hck => commit_born hs hids hk hck,
      fun hm k hk => ?_⟩
    rcases hc with hall | ⟨hmi, -⟩
    · exact hall k hk
    · exact absurd (hs.master_unique hm hmi) hj

/-! ### The contract -/

/-- What a transaction has to know before a statement. -/
def sectionPre (i : TxId) : SectionOp → SectionDesk → Prop
  | .lockAll, s | .insertContent _, s => ∀ k, s.sections.own i k = none
  | .update id _, s => (s.sections.own i id).isSome
  | .deleteContents p, _ => ∀ c, p c → c.counts = false
  | .commit, s => s.Commits i
  | _, _ => True

theorem sectionPre_stable {o : SectionOp} (h : Rely i s t) (hp : sectionPre i o s) :
    sectionPre i o t := by
  cases o with
  | lockAll => exact fun k => (h.own k).trans (hp k)
  | insertContent c => exact fun k => (h.own k).trans (hp k)
  | update id dto =>
      show (t.sections.own i id).isSome
      rw [h.own]
      exact hp
  | deleteContents p => exact hp
  | commit => exact hp.stable h
  | _ => trivial

theorem perform_keeps {o : SectionOp} {sold : ℕ} {r : Except Fault o.Res} (hs : s.Inv)
    (hp : sectionPre i o s) (h : o.perform i sold s = some (r, t)) :
    t.Inv ∧ ∀ j, j ≠ i → Rely j s t := by
  have hsame : t.Inv ∧ Same i s t → t.Inv ∧ ∀ j, j ≠ i → Rely j s t := fun hst =>
    ⟨hst.1, fun _ hj => hst.2.rely hj⟩
  have hread : some (r, s) = some (r, t) → t.Inv ∧ ∀ j, j ≠ i → Rely j s t := fun heq => by
    obtain ⟨-, rfl⟩ := Prod.mk.inj (Option.some.inj heq)
    exact ⟨hs, fun _ _ => Rely.refl⟩
  cases o with
  | lockAll =>
      obtain ⟨-, rfl⟩ := Prod.mk.inj (Option.some.inj h)
      obtain ⟨hinv, hrely, -⟩ := lockAll_keeps hs hp
      exact ⟨hinv, hrely⟩
  | lock id =>
      obtain ⟨u, hu, heq⟩ := Option.map_eq_some_iff.mp h
      obtain ⟨-, rfl⟩ := Prod.mk.inj heq
      exact hsame (lock_keeps hs hu)
  | update id dto => exact hsame (update_keeps hs hp h)
  | insert row => exact hsame (insert_keeps hs h)
  | delete id => exact hsame (delete_keeps hs h)
  | deleteContents p =>
      obtain ⟨contents, hw, heq⟩ := Option.map_eq_some_iff.mp h
      obtain ⟨-, rfl⟩ := Prod.mk.inj heq
      exact hsame (deleteContents_keeps hs hp hw)
  | insertContent c => exact hsame (insertContent_keeps hs hp h)
  | commit =>
      obtain ⟨-, rfl⟩ := Prod.mk.inj (Option.some.inj h)
      exact commit_keeps hs hp
  | rollback =>
      obtain ⟨-, rfl⟩ := Prod.mk.inj (Option.some.inj h)
      exact hsame (rollback_keeps hs)
  | find | any | countVisible | maxSortOrder | count | countSold =>
      obtain ⟨-, rfl⟩ := Prod.mk.inj (Option.some.inj h)
      exact ⟨hs, fun _ _ => Rely.refl⟩

theorem dropped_keeps (hs : s.Inv) (o : SectionOp) :
    (o.dropped i s).Inv ∧ ∀ j, j ≠ i → Rely j s (o.dropped i s) := by
  cases o with
  | commit =>
      obtain ⟨hinv, hsame⟩ := rollback_keeps (i := i) hs
      exact ⟨hinv, fun _ hj => hsame.rely hj⟩
  | _ => exact ⟨hs, fun _ _ => Rely.refl⟩

/-- A statement ends with a fault, or does what it is for. -/
theorem exec_cases {o : SectionOp} {x : SectionInput} {r : Except Fault o.Res}
    (h : o.exec i x s = some (r, t)) :
    (∃ e, r = .error e ∧ t = o.dropped i s) ∨ o.perform i x.sold s = some (r, t) := by
  unfold SectionOp.exec at h
  cases hf : x.fault with
  | none =>
      refine .inr ?_
      cases o with
      | rollback => exact h
      | _ => simpa only [hf] using h
  | some e =>
      cases o with
      | rollback => exact .inr h
      | _ =>
          simp only [hf] at h
          obtain ⟨rfl, rfl⟩ := Prod.mk.inj (Option.some.inj h)
          exact .inl ⟨_, rfl, rfl⟩

def sectionContract : Contract SectionOp SectionOp.Res Fault SectionDesk SectionInput where
  exec := SectionOp.exec
  Inv := Inv
  Rely := Rely
  pre := sectionPre
  rely_refl _ _ := Rely.refl
  rely_trans := Rely.trans
  pre_stable := sectionPre_stable
  fresh i s := ∀ k, s.sections.own i k = none
  fresh_stable h hf k := (h.own k).trans (hf k)
  step hs hp h := by
    rcases exec_cases h with ⟨e, -, rfl⟩ | hperform
    · exact dropped_keeps hs _
    · exact perform_keeps hs hp hperform

/-! ### The programs -/

section programs

variable {α β : Type} {Q : Except Fault β → SectionDesk → Prop}

/-- One statement and the rest of the transaction; a fault ends it. -/
theorem obeys_ask {o : SectionOp} {f : o.Res → SectionService β}
    (hpre : sectionPre i o s) (hfault : ∀ e t, Q (.error e) t)
    (hok : ∀ s₁ x a s₂, Rely i s s₁ → s₁.Inv → o.perform i x s₁ = some (.ok a, s₂) →
      sectionContract.Obeys i Q (f a) s₂) :
    sectionContract.Obeys i Q (SectionService.ask o >>= f) s := by
  refine Contract.Obeys.perform hpre (fun s₁ x a s₂ h₁ hs h => ?_)
    fun _ _ e _ _ _ _ t _ => hfault e t
  rcases exec_cases h with ⟨e, he, -⟩ | hperform
  · cases he
  · exact hok s₁ x.sold a s₂ h₁ hs hperform

/-- The last statement of a transaction. -/
theorem obeys_last {o : SectionOp} {Q : Except Fault o.Res → SectionDesk → Prop}
    (hpre : sectionPre i o s) (hfault : ∀ e t, Q (.error e) t)
    (hok : ∀ s₁ x a s₂, Rely i s s₁ → s₁.Inv → o.perform i x s₁ = some (.ok a, s₂) →
      ∀ t, Rely i s₂ t → Q (.ok a) t) :
    sectionContract.Obeys i Q (SectionService.ask o) s := by
  refine ⟨hpre, fun s₁ x r s₂ h₁ hs h => ?_⟩
  cases r with
  | error e => exact fun t _ => hfault e t
  | ok a =>
      rcases exec_cases h with ⟨e, he, -⟩ | hperform
      · cases he
      · exact hok s₁ x.sold a s₂ h₁ hs hperform

/-- A part of a transaction that ends with `P`, or with a fault. -/
abbrev Reaches (P : α → SectionDesk → Prop) : Except Fault α → SectionDesk → Prop :=
  Contract.Ends P fun _ => True

/-- What a transaction has done is known to be right when it commits. -/
abbrev Ready (i : TxId) : Except Fault α → SectionDesk → Prop := Reaches fun _ s => s.Commits i

theorem obeys_tx {body : SectionService α} (h : sectionContract.Obeys i (Ready i) body s) :
    sectionContract.Obeys i (fun _ _ => True) (SectionService.tx body) s := by
  unfold SectionService.tx
  refine Contract.Obeys.bind (Contract.Obeys.catching (Contract.Obeys.mono (fun r u hr => ?_) h))
  cases r with
  | ok a =>
      exact obeys_ask hr (fun _ _ => trivial) fun _ _ _ _ _ _ _ => fun _ _ => trivial
  | error e =>
      exact obeys_ask trivial (fun _ _ => trivial) fun _ _ _ _ _ _ _ => fun _ _ => trivial

/-- The body of a transaction ends where it may commit. -/
theorem obeys_pure {a : α} (h : s.Commits i) :
    sectionContract.Obeys i (Ready i) (Pure.pure a : SectionService α) s := fun _ ht => h.stable ht

theorem obeys_throw {e : Fault} :
    sectionContract.Obeys i (Ready i) (MonadExcept.throw e : SectionService α) s := fun _ _ => trivial

/-! ### Locking the sections -/

/-- The transaction's versions are locks: they say what is committed. -/
def Locks (s : SectionDesk) (i : TxId) : Prop :=
  ∀ k v, s.sections.own i k = some v → v = s.sections.committed k

/-- The sections that were found are locked, as far as they are not in `rest`. -/
structure Locking (i : TxId) (id : Option SectionId) (ids rest : List SectionId)
    (s : SectionDesk) : Prop where
  found : s.found i = some ids
  locked : ∀ k ∈ ids, k ∈ rest ∨ ((s.sections.committed k).isSome → (s.sections.own i k).isSome)
  locks : Locks s i
  named : ∀ k, id = some k → k ∈ ids ∨ s.Gone k

/-- The transaction is the master and has a lock of the section. -/
structure Holding (i : TxId) (k : SectionId) (cur : SectionRow) (s : SectionDesk) : Prop where
  master : s.Master i
  locks : Locks s i
  row : s.sections.own i k = some (some cur)

theorem Locks.stable (h : Rely i s t) (hl : Locks s i) : Locks t i := by
  intro k v hv
  rw [h.own] at hv
  rw [h.kept k (by rw [hv]; rfl)]
  exact hl k v hv

theorem Locking.stable {id : Option SectionId} {ids rest : List SectionId} (h : Rely i s t)
    (hl : Locking i id ids rest s) : Locking i id ids rest t where
  found := h.found.trans hl.found
  locked k hk := (hl.locked k hk).imp_right fun hown hc => by
    rw [h.own]
    exact hown (h.born ids hl.found k hk hc)
  locks := hl.locks.stable h
  named k hk := (hl.named k hk).imp_right (h.gone k)

theorem Holding.stable {cur : SectionRow} (h : Rely i s t) (hh : Holding i k cur s) :
    Holding i k cur t :=
  ⟨h.master hh.master, hh.locks.stable h, (h.own k).trans hh.row⟩

theorem Holding.committed {cur : SectionRow} (h : Holding i k cur s) :
    s.sections.committed k = some cur := (h.locks k _ h.row).symm

theorem Locks.seen (h : Locks s i) (m : SectionId) :
    s.sections.seen i m = s.sections.committed m := by
  cases hown : s.sections.own i m with
  | none => exact Table.seen_of_own_none hown
  | some v => rw [Table.seen_of_own hown, h m v hown]

/-- One more section is locked, or has been deleted. -/
theorem lock_locking {id : Option SectionId} {ids rest : List SectionId}
    (h : Locking i id ids (k :: rest) s) (hlock : s.lock i k = some t) :
    Locking i id ids rest t := by
  unfold SectionDesk.lock at hlock
  split at hlock
  next hnone =>
    obtain rfl := Option.some.inj hlock
    refine ⟨h.found, fun m hm => ?_, h.locks, h.named⟩
    rcases h.locked m hm with hrest | hown
    · rcases List.mem_cons.mp hrest with rfl | hrest
      · refine .inr fun hc => ?_
        rw [h.locks.seen] at hnone
        rw [hnone] at hc
        cases hc
      · exact .inl hrest
    · exact .inr hown
  next row hrow =>
    split at hlock
    · cases hlock
    obtain ⟨sections, hw, rfl⟩ := Option.map_eq_some_iff.mp hlock
    have hcommitted : sections.committed = s.sections.committed := Table.committed_write hw
    have hself : sections.own i k = some (some row) := Table.own_write_self hw
    have hother : ∀ {m}, m ≠ k → sections.own i m = s.sections.own i m :=
      fun hm => Table.own_write_ne hw hm
    refine ⟨h.found, fun m hm => ?_, fun m v hv => ?_, fun m hm => (h.named m hm).imp_right ?_⟩
    · by_cases hmk : m = k
      · subst hmk
        refine .inr fun _ => ?_
        show (sections.own i m).isSome
        rw [hself]
        rfl
      · rcases h.locked m hm with hrest | hown
        · exact .inl ((List.mem_cons.mp hrest).resolve_left hmk)
        · refine .inr fun hc => ?_
          show (sections.own i m).isSome
          rw [hother hmk]
          refine hown ?_
          rw [← hcommitted]
          exact hc
    · show v = sections.committed m
      rw [hcommitted]
      by_cases hmk : m = k
      · subst hmk
        obtain rfl := Option.some.inj (hself.symm.trans hv)
        rw [← hrow, h.locks.seen]
      · exact h.locks m v ((hother hmk).symm.trans hv)
    · intro hg
      have hmk : m ≠ k := by
        rintro rfl
        rw [Table.seen_of_own_none (hg.idle i), hg.uncommitted] at hrow
        cases hrow
      refine ⟨lt_of_lt_of_eq hg.old (Table.next_write hw).symm, ?_, fun j => ?_⟩
      · show sections.committed m = none
        rw [hcommitted]
        exact hg.uncommitted
      · exact (Table.own_write_ne hw hmk).trans (hg.idle j)

theorem obeys_lockRows {id : Option SectionId} {ids : List SectionId} :
    ∀ (rest : List SectionId) (s : SectionDesk), Locking i id ids rest s →
      sectionContract.Obeys i (Reaches fun _ => Locking i id ids []) (SectionService.lockRows rest)
        s := by
  intro rest
  induction rest with
  | nil => exact fun s h t ht => h.stable ht
  | cons k rest ih =>
      intro s h
      refine obeys_ask trivial (fun _ _ => trivial) fun s₁ x a s₂ h₁ hs hperform => ?_
      obtain ⟨u, hlock, heq⟩ := Option.map_eq_some_iff.mp hperform
      obtain ⟨-, rfl⟩ := Prod.mk.inj heq
      exact ih _ (lock_locking (h.stable h₁) hlock)

theorem obeys_lockSections {id : Option SectionId} (hown : ∀ k, s.sections.own i k = none)
    (hnamed : ∀ k, id = some k → (s.sections.committed k).isSome ∨ s.Gone k) :
    sectionContract.Obeys i (Reaches fun _ t => ∃ ids, Locking i id ids [] t)
      SectionService.lockSections s := by
  refine obeys_ask hown (fun _ _ => trivial) fun s₁ x ids s₂ h₁ hs hperform => ?_
  obtain ⟨hr, rfl⟩ := Prod.mk.inj (Option.some.inj hperform)
  obtain rfl := Except.ok.inj hr
  have hown₁ : ∀ k, s₁.sections.own i k = none := fun k => (h₁.own k).trans (hown k)
  obtain ⟨-, -, hids⟩ := lockAll_keeps hs hown₁
  have hnamed₁ : ∀ k, id = some k → (s₁.sections.committed k).isSome ∨ s₁.Gone k := fun k hk =>
    (hnamed k hk).elim (h₁.known k) fun hg => .inr (h₁.gone k hg)
  have hlocking : Locking i id ((s₁.rowsOf i).map (·.1)) ((s₁.rowsOf i).map (·.1))
      { s₁ with found := Function.update s₁.found i (some ((s₁.rowsOf i).map (·.1))) } := by
    refine ⟨Function.update_self .., fun k hk => .inl hk, fun k v hv => ?_, fun k hk => ?_⟩
    · cases (hown₁ k).symm.trans hv
    · exact (hnamed₁ k hk).imp (hids k).mpr fun hg => ⟨hg.old, hg.uncommitted, hg.idle⟩
  refine Contract.Obeys.mono (fun r u hr => ?_) (obeys_lockRows _ _ hlocking)
  cases r with
  | ok a => exact ⟨_, hr⟩
  | error e => trivial

/-- The section that is found is one that was locked. -/
theorem holding_of_found {cur : SectionRow} {ids : List SectionId}
    (h : Locking i (some k) ids [] s) (hcur : s.sections.seen i k = some cur) :
    Holding i k cur s := by
  have hk : k ∈ ids := (h.named k rfl).resolve_right fun hg => by
    rw [Table.seen_of_own_none (hg.idle i), hg.uncommitted] at hcur
    cases hcur
  have hlocked : ∀ m ∈ ids, (s.sections.committed m).isSome → (s.sections.own i m).isSome :=
    fun m hm => (h.locked m hm).resolve_left List.not_mem_nil
  have hcommitted : s.sections.committed k = some cur := by rw [← h.locks.seen, hcur]
  have hsome : (s.sections.committed k).isSome := by rw [hcommitted]; rfl
  obtain ⟨v, hv⟩ := Option.isSome_iff_exists.mp (hlocked k hk hsome)
  refine ⟨⟨ids, h.found, ⟨k, hk, hsome, hlocked k hk hsome⟩, hlocked⟩, h.locks, ?_⟩
  rw [hv, h.locks k v hv, hcommitted]

theorem obeys_findUnique {id : Option SectionId} {ids : List SectionId}
    (h : Locking i id ids [] s) :
    sectionContract.Obeys i (Reaches fun r t => ∀ k cur, r = some (k, cur) → Holding i k cur t)
      (SectionService.findUnique id) s := by
  cases id with
  | none => exact fun t _ k cur hc => by cases hc
  | some k =>
      refine obeys_ask trivial (fun _ _ => trivial) fun s₁ x a s₂ h₁ hs hperform => ?_
      obtain ⟨hr, rfl⟩ := Prod.mk.inj (Option.some.inj hperform)
      have hrow : s₁.sections.seen i k = a := Except.ok.inj hr
      intro t ht k' cur hc
      obtain ⟨row, rfl, heq⟩ := Option.map_eq_some_iff.mp hc
      obtain ⟨rfl, rfl⟩ := Prod.mk.inj heq
      exact (holding_of_found (h.stable h₁) hrow).stable ht

/-! ### The calls -/

/-- Another section is visible to the transaction. -/
def Room (s : SectionDesk) (i : TxId) (k : SectionId) : Prop := ∃ m, m ≠ k ∧ s.ShownTo i m

theorem Room.stable (h : Rely i s t) (hm : s.Master i) (hr : Room s i k) : Room t i k := by
  obtain ⟨m, hmk, hm'⟩ := hr
  exact ⟨m, hmk, hm'.stable h hm⟩

theorem room_of_count (h : (s.rowsOf i).countP (fun r => r.2.isVisible && r.1 ≠ k) ≠ 0) :
    Room s i k := by
  obtain ⟨⟨m, r⟩, hmem, hr⟩ := List.countP_pos_iff.mp (Nat.pos_of_ne_zero h)
  simp only [Bool.and_eq_true, decide_eq_true_eq] at hr
  exact ⟨m, hr.2, r, mem_rowsOf.mp hmem, hr.1⟩

/-- Some section is visible; if it is not this one, there is room. -/
theorem room_of_hidden {cur : SectionRow} (hs : s.Inv) (h : Holding i k cur s)
    (hcur : cur.isVisible = false) : Room s i k := by
  obtain ⟨m, r, hr, hvis⟩ := hs.visible
  refine ⟨m, ?_, r, by rw [h.locks.seen, hr], hvis⟩
  rintro rfl
  rw [h.committed] at hr
  obtain rfl := Option.some.inj hr
  rw [hcur] at hvis
  cases hvis

/-- The master stays the master when it writes what it has locked. -/
theorem master_of_write {sections : Table TxId SectionRow} {row : Option SectionRow}
    (hm : s.Master i) (hw : s.sections.write i k row = some sections) :
    Master { s with sections } i := by
  have hown : ∀ m, (s.sections.own i m).isSome → (sections.own i m).isSome := fun m hm => by
    by_cases hmk : m = k
    · subst hmk
      rw [Table.own_write_self hw]
      rfl
    · rw [Table.own_write_ne hw hmk]
      exact hm
  have hcommitted : sections.committed = s.sections.committed := Table.committed_write hw
  obtain ⟨ids, hfound, ⟨id, hid, hc, hid'⟩, hall⟩ := hm
  refine ⟨ids, hfound, ⟨id, hid, ?_, hown id hid'⟩, fun m hm hc => hown m (hall m hm ?_)⟩
  · show (sections.committed id).isSome
    rw [hcommitted]
    exact hc
  · rw [← hcommitted]
    exact hc

/-- What is seen of the other sections is not written. -/
theorem shownTo_of_write {sections : Table TxId SectionRow} {row : Option SectionRow} {m : SectionId}
    (hw : s.sections.write i k row = some sections) (hmk : m ≠ k) (h : s.ShownTo i m) :
    ShownTo { s with sections } i m := by
  obtain ⟨r, hr, hvis⟩ := h
  refine ⟨r, ?_, hvis⟩
  show sections.seen i m = some r
  cases hown : s.sections.own i m with
  | none =>
      rw [Table.seen_of_own_none ((Table.own_write_ne hw hmk).trans hown),
        Table.committed_write hw, ← hr, Table.seen_of_own_none hown]
  | some v =>
      rw [Table.seen_of_own ((Table.own_write_ne hw hmk).trans hown), ← hr, Table.seen_of_own hown]

/-- An update that hides the last visible section is not made. -/
def Spared (i : TxId) (k : SectionId) (cur : SectionRow) (dto : UpdateSectionDto)
    (s : SectionDesk) : Prop :=
  Room s i k ∨ (dto.apply cur).isVisible = true ∨ cur.isVisible = false

theorem update_commits {cur : SectionRow} {dto : UpdateSectionDto} {a : SectionRow}
    (hs : s.Inv) (h : Holding i k cur s) (hspared : Spared i k cur dto s)
    (hup : s.update i k dto = some (.ok a, t)) : t.Commits i := by
  unfold SectionDesk.update at hup
  rw [Table.seen_of_own h.row] at hup
  obtain ⟨sections, hw, heq⟩ := Option.map_eq_some_iff.mp hup
  obtain ⟨-, rfl⟩ := Prod.mk.inj heq
  refine .inr ⟨master_of_write h.master hw, ?_⟩
  rcases hspared with ⟨m, hmk, hm⟩ | hvis | hhidden
  · exact ⟨m, shownTo_of_write hw hmk hm⟩
  · exact ⟨k, dto.apply cur, Table.seen_of_own (Table.own_write_self hw), hvis⟩
  · obtain ⟨m, hmk, hm⟩ := room_of_hidden hs h hhidden
    exact ⟨m, shownTo_of_write hw hmk hm⟩

theorem delete_commits {cur : SectionRow} (h : Holding i k cur s) (hroom : Room s i k)
    (hdel : s.delete i k = some (.ok (), t)) : t.Commits i := by
  unfold SectionDesk.delete at hdel
  rw [Table.seen_of_own h.row] at hdel
  dsimp only at hdel
  split at hdel
  · cases hdel
  split at hdel
  · cases (Prod.mk.inj (Option.some.inj hdel)).1
  obtain ⟨sections, hw, heq⟩ := Option.map_eq_some_iff.mp hdel
  obtain ⟨-, rfl⟩ := Prod.mk.inj heq
  obtain ⟨m, hmk, hm⟩ := hroom
  exact .inr ⟨master_of_write h.master hw, m, shownTo_of_write hw hmk hm⟩

theorem insert_commits {row : SectionRow} {a : SectionId} (hown : ∀ k, s.sections.own i k = none)
    (hins : s.insert i row = some (.ok a, t)) : t.Commits i := by
  unfold SectionDesk.insert at hins
  split at hins
  · cases hins
  split at hins
  · cases (Prod.mk.inj (Option.some.inj hins)).1
  obtain ⟨-, rfl⟩ := Prod.mk.inj (Option.some.inj hins)
  refine .inl fun k hk => ?_
  obtain ⟨r, hr, hvis⟩ := hk
  have hr' : s.sections.committed k = some r := hr
  refine (ShownTo.of_own_none ?_).mpr ⟨r, hr, hvis⟩
  exact (Table.own_insert_of_ne (Table.lt_next hr').ne).trans (hown k)

/-- A statement that reads, between others of a transaction that may commit. -/
theorem obeys_count {β : Type} {Q : Except Fault β → SectionDesk → Prop} {k : SectionId}
    {p : SectionContent → Bool} {f : ℕ → SectionService β} (hfault : ∀ e t, Q (.error e) t)
    (hok : ∀ s₁ a, Rely i s s₁ → s₁.Inv → sectionContract.Obeys i Q (f a) s₁) :
    sectionContract.Obeys i Q (SectionService.ask (.count k p) >>= f) s :=
  obeys_ask trivial hfault fun s₁ x a s₂ h₁ hs h => by
    obtain ⟨-, rfl⟩ := Prod.mk.inj (Option.some.inj h)
    exact hok _ a h₁ hs

theorem obeys_update {id : Option SectionId} {dto : UpdateSectionDto}
    (hown : ∀ k, s.sections.own i k = none)
    (hnamed : ∀ k, id = some k → (s.sections.committed k).isSome ∨ s.Gone k) :
    sectionContract.Obeys i (fun _ _ => True) (SectionService.update id dto) s := by
  refine obeys_tx (Contract.Obeys.bind (Contract.Obeys.mono (fun r s₁ hr => ?_)
    (obeys_lockSections hown hnamed)))
  cases r with
  | error e => trivial
  | ok _ =>
    obtain ⟨ids, hlocked⟩ := hr
    refine Contract.Obeys.bind (Contract.Obeys.mono (fun r s₂ hr => ?_) (obeys_findUnique hlocked))
    cases r with
    | error e => trivial
    | ok found =>
      cases found with
      | none => exact obeys_throw
      | some kc =>
        obtain ⟨k, cur⟩ := kc
        have hheld : Holding i k cur s₂ := hr k cur rfl
        -- what is left to do once the section may be hidden
        have hrest : ∀ s, Holding i k cur s → Spared i k cur dto s →
            sectionContract.Obeys i (Ready i) (do
              let next ← SectionService.ask (.update k dto)
              let categories ← SectionService.ask (.count k SectionService.isCategory)
              let hiddenCategories ← SectionService.ask
                (.count k fun c => SectionService.isCategory c && !c.isVisible)
              let products ← SectionService.ask
                (.count k fun c => c.kind = .product && c.deletedAt.isNone)
              return ({ row := next, categories, hiddenCategories, products } : SectionView)) s := by
          intro s hs hspared
          refine obeys_ask ?_ (fun _ _ => trivial) fun s₃ x a s₄ h₃ hinv hup => ?_
          · show (s.sections.own i k).isSome
            rw [hs.row]
            rfl
          have hspared₃ : Spared i k cur dto s₃ := hspared.imp_left (Room.stable h₃ hs.master)
          have hcommits : s₄.Commits i := update_commits hinv (hs.stable h₃) hspared₃ hup
          exact obeys_count (fun _ _ => trivial) fun _ _ h₅ _ =>
            obeys_count (fun _ _ => trivial) fun _ _ h₆ _ =>
            obeys_count (fun _ _ => trivial) fun _ _ h₇ _ =>
            obeys_pure (((hcommits.stable h₅).stable h₆).stable h₇)
        show sectionContract.Obeys i (Ready i) (ite _ _ _) s₂
        by_cases hhide : (decide (dto.isVisible = some false) && cur.isVisible) = true
        · rw [if_pos hhide]
          refine obeys_ask trivial (fun _ _ => trivial) fun s₃ x a s₄ h₃ _ hcount => ?_
          obtain ⟨ha, rfl⟩ := Prod.mk.inj (Option.some.inj hcount)
          obtain rfl := Except.ok.inj ha
          split
          · exact fun _ _ => trivial
          next hothers => exact hrest _ (hheld.stable h₃) (.inl (room_of_count hothers))
        · rw [if_neg hhide]
          refine hrest s₂ hheld (.inr ?_)
          cases hcur : cur.isVisible with
          | false => exact .inr rfl
          | true =>
              have hdto : dto.isVisible ≠ some false := by simpa [hcur] using hhide
              refine .inl ?_
              cases hd : dto.isVisible with
              | none => simpa [UpdateSectionDto.apply, hd] using hcur
              | some v =>
                  rw [hd] at hdto
                  cases v with
                  | false => exact absurd rfl hdto
                  | true => simp [UpdateSectionDto.apply, hd]

theorem counts_of_deleted {c : SectionContent} (h : c.kind = .category ∧ c.deletedAt.isSome) :
    c.counts = false := by
  simp [SectionContent.counts, h.1, h.2]

theorem obeys_remove {id : Option SectionId} (hown : ∀ k, s.sections.own i k = none)
    (hnamed : ∀ k, id = some k → (s.sections.committed k).isSome ∨ s.Gone k) :
    sectionContract.Obeys i (fun _ _ => True) (SectionService.remove id) s := by
  refine obeys_tx (Contract.Obeys.bind (Contract.Obeys.mono (fun r s₁ hr => ?_)
    (obeys_lockSections hown hnamed)))
  cases r with
  | error e => trivial
  | ok _ =>
    obtain ⟨ids, hlocked⟩ := hr
    refine Contract.Obeys.bind (Contract.Obeys.mono (fun r s₂ hr => ?_) (obeys_findUnique hlocked))
    cases r with
    | error e => trivial
    | ok found =>
      cases found with
      | none => exact obeys_throw
      | some kc =>
        obtain ⟨k, cur⟩ := kc
        have hheld : Holding i k cur s₂ := hr k cur rfl
        -- a hidden section leaves room as it is
        have hrest : ∀ s, Holding i k cur s → (Room s i k ∨ cur.isVisible = false) →
            sectionContract.Obeys i (Ready i) (do
              SectionService.ask (.deleteContents fun c => c.kind = .category && c.sectionId = k &&
                c.deletedAt.isSome && c.isChild)
              SectionService.ask (.deleteContents fun c => c.kind = .category && c.sectionId = k &&
                c.deletedAt.isSome)
              SectionService.ask (.delete k)) s := by
          intro s hs hroom
          refine obeys_ask (fun c hc => ?_) (fun _ _ => trivial) fun s₃ x a s₄ h₃ hinv hdel => ?_
          · exact counts_of_deleted (by simp at hc; exact ⟨hc.1.1.1, hc.1.2⟩)
          obtain ⟨contents, -, heq⟩ := Option.map_eq_some_iff.mp hdel
          obtain ⟨-, rfl⟩ := Prod.mk.inj heq
          have hheld₃ := hs.stable h₃
          have hroom₃ : Room s₃ i k := (hroom.imp_left (Room.stable h₃ hs.master)).elim (fun h => h)
            fun hhidden => room_of_hidden hinv hheld₃ hhidden
          have hheld₄ : Holding i k cur { s₃ with contents } :=
            ⟨hheld₃.master, hheld₃.locks, hheld₃.row⟩
          have hroom₄ : Room { s₃ with contents } i k := hroom₃
          refine obeys_ask (fun c hc => ?_) (fun _ _ => trivial) fun s₅ x a s₆ h₅ _ hdel' => ?_
          · exact counts_of_deleted (by simp at hc; exact ⟨hc.1.1, hc.2⟩)
          obtain ⟨contents', -, heq⟩ := Option.map_eq_some_iff.mp hdel'
          obtain ⟨-, rfl⟩ := Prod.mk.inj heq
          have hheld₅ := hheld₄.stable h₅
          have hheld₆ : Holding i k cur { s₅ with contents := contents' } :=
            ⟨hheld₅.master, hheld₅.locks, hheld₅.row⟩
          have hroom₅ : Room s₅ i k := hroom₄.stable h₅ hheld₄.master
          have hroom₆ : Room { s₅ with contents := contents' } i k := hroom₅
          refine obeys_last trivial (fun _ _ => trivial) fun s₇ x a s₈ h₇ _ hdelete => ?_
          have hcommits : s₈.Commits i :=
            delete_commits (hheld₆.stable h₇) (hroom₆.stable h₇ hheld₆.master) hdelete
          exact fun _ ht => hcommits.stable ht
        refine obeys_count (fun _ _ => trivial) fun s₃ cats h₃ _ =>
          obeys_count (fun _ _ => trivial) fun s₄ products h₄ _ =>
          obeys_count (fun _ _ => trivial) fun s₅ bundles h₅ _ =>
          obeys_ask trivial (fun _ _ => trivial) fun s₆ x sold s₆' h₆ _ hsold => ?_
        obtain ⟨-, rfl⟩ := Prod.mk.inj (Option.some.inj hsold)
        have hheld₆ := (((hheld.stable h₃).stable h₄).stable h₅).stable h₆
        dsimp only
        split
        · exact fun _ _ => trivial
        by_cases hvis : cur.isVisible = true
        · rw [if_pos hvis]
          refine obeys_ask trivial (fun _ _ => trivial) fun s₇ x a s₈ h₇ _ hcount => ?_
          obtain ⟨ha, rfl⟩ := Prod.mk.inj (Option.some.inj hcount)
          obtain rfl := Except.ok.inj ha
          split
          · exact fun _ _ => trivial
          next hothers => exact hrest _ (hheld₆.stable h₇) (.inl (room_of_count hothers))
        · rw [if_neg hvis]
          exact hrest _ hheld₆ (.inr (by simpa using hvis))

theorem obeys_create {dto : CreateSectionDto} {toLowerCase : String → String}
    (hown : ∀ k, s.sections.own i k = none) :
    sectionContract.Obeys i (fun _ _ => True) (SectionService.create dto toLowerCase) s := by
  refine obeys_tx (obeys_ask trivial (fun _ _ => trivial) fun s₁ x a s₁' h₁ _ hany => ?_)
  obtain ⟨-, rfl⟩ := Prod.mk.inj (Option.some.inj hany)
  dsimp only
  split
  · exact fun _ _ => trivial
  refine obeys_ask trivial (fun _ _ => trivial) fun s₂ x a s₂' h₂ _ hany => ?_
  obtain ⟨-, rfl⟩ := Prod.mk.inj (Option.some.inj hany)
  split
  · exact fun _ _ => trivial
  refine obeys_ask trivial (fun _ _ => trivial) fun s₃ x last s₃' h₃ _ hmax => ?_
  obtain ⟨-, rfl⟩ := Prod.mk.inj (Option.some.inj hmax)
  refine obeys_ask trivial (fun _ _ => trivial) fun s₄ x id s₅ h₄ _ hinsert => ?_
  have hown₄ : ∀ k, s₄.sections.own i k = none := fun k =>
    (h₄.own k).trans ((h₃.own k).trans ((h₂.own k).trans ((h₁.own k).trans (hown k))))
  exact obeys_pure (insert_commits hown₄ hinsert)

theorem obeys_addContent {c : SectionContent} (hown : ∀ k, s.sections.own i k = none) :
    sectionContract.Obeys i (fun _ _ => True) (SectionService.addContent c) s := by
  refine obeys_tx (obeys_last hown (fun _ _ => trivial) fun s₁ x a s₂ h₁ _ hinsert => ?_)
  have hown₁ : ∀ k, s₁.sections.own i k = none := fun k => (h₁.own k).trans (hown k)
  have hsections : s₂.sections = s₁.sections := by
    have hinsert : s₁.insertContent i c = some (.ok a, s₂) := hinsert
    unfold SectionDesk.insertContent at hinsert
    split at hinsert
    · cases (Prod.mk.inj (Option.some.inj hinsert)).1
    split at hinsert
    · obtain ⟨-, rfl⟩ := Prod.mk.inj (Option.some.inj hinsert)
      rfl
    · cases hinsert
  have hcommits : s₂.Commits i := .inl fun k hk => by
    rw [ShownTo.of_own_none (by rw [hsections]; exact hown₁ k)]
    exact hk
  exact fun _ ht => hcommits.stable ht

end programs

/-! ### Every interleaving -/

/-- Only a commit changes what is committed. -/
theorem perform_committed {o : SectionOp} {sold : ℕ} {r : Except Fault o.Res} (hs : s.Inv)
    (hp : sectionPre i o s) (h : o.perform i sold s = some (r, t)) :
    t.sections.committed = s.sections.committed ∨
      ∀ k, t.sections.committed k = s.sections.seen i k := by
  cases o with
  | lock id =>
      obtain ⟨u, hu, heq⟩ := Option.map_eq_some_iff.mp h
      obtain ⟨-, rfl⟩ := Prod.mk.inj heq
      exact .inl (lock_keeps hs hu).2.committed
  | update id dto => exact .inl (update_keeps hs hp h).2.committed
  | insert row => exact .inl (insert_keeps hs h).2.committed
  | delete id => exact .inl (delete_keeps hs h).2.committed
  | deleteContents p =>
      obtain ⟨contents, hw, heq⟩ := Option.map_eq_some_iff.mp h
      obtain ⟨-, rfl⟩ := Prod.mk.inj heq
      exact .inl rfl
  | insertContent c => exact .inl (insertContent_keeps hs hp h).2.committed
  | commit =>
      obtain ⟨-, rfl⟩ := Prod.mk.inj (Option.some.inj h)
      exact .inr fun _ => rfl
  | lockAll | rollback | find | any | countVisible | maxSortOrder | count | countSold =>
      obtain ⟨-, rfl⟩ := Prod.mk.inj (Option.some.inj h)
      exact .inl rfl

/-- A section that its transaction deletes has nothing in it that counts. -/
theorem Inv.empty_of_deleted (hs : s.Inv) (hdel : s.sections.own i k = some none)
    {m : ℕ} {c : SectionContent} (hc : s.contents.committed m = some c) (hk : c.sectionId = k) :
    c.counts = false := by
  cases hown : s.contents.own i m with
  | none => exact absurd hk (hs.emptied i k hdel m c (by rw [Table.seen_of_own_none hown, hc]))
  | some v =>
      cases v with
      | none => exact hs.cleared i m hown c hc
      | some c' =>
          rw [(hs.inserted i m c' hown).2] at hc
          cases hc

/-- What a section that goes in a step has had in it. -/
def LeavesEmpty (s t : SectionDesk) : Prop :=
  ∀ k, (s.sections.committed k).isSome → t.sections.committed k = none →
    ∀ m c, s.contents.committed m = some c → c.sectionId = k → c.counts = false

theorem leavesEmpty_of_same (h : t.sections.committed = s.sections.committed) : LeavesEmpty s t := by
  intro k hk hgone
  rw [h] at hgone
  rw [hgone] at hk
  cases hk

theorem exec_leavesEmpty {o : SectionOp} {x : SectionInput} {r : Except Fault o.Res} (hs : s.Inv)
    (hp : sectionPre i o s) (h : o.exec i x s = some (r, t)) : LeavesEmpty s t := by
  rcases exec_cases h with ⟨e, -, rfl⟩ | hperform
  · exact leavesEmpty_of_same (by cases o <;> rfl)
  rcases perform_committed hs hp hperform with hsame | hcommit
  · exact leavesEmpty_of_same hsame
  · intro k hk hgone m c hc hid
    rw [hcommit] at hgone
    refine hs.empty_of_deleted (i := i) (k := k) ?_ hc hid
    cases hown : s.sections.own i k with
    | none =>
        rw [Table.seen_of_own_none hown] at hgone
        rw [hgone] at hk
        cases hk
    | some v =>
        rw [Table.seen_of_own hown] at hgone
        rw [hgone]

/-- A section that a call can name is there, or is gone. -/
theorem known_iff (h : s.Known k = true) :
    (s.sections.committed k).isSome ∨ s.Gone k := by
  simp only [SectionDesk.Known, Bool.and_eq_true, decide_eq_true_eq, Bool.or_eq_true,
    Option.isNone_iff_eq_none] at h
  obtain ⟨hlt, hcommitted | hidle⟩ := h
  · exact .inl hcommitted
  · cases hc : s.sections.committed k with
    | some r => exact .inl rfl
    | none => exact .inr ⟨hlt, hc, fun _ => Table.own_of_idle hidle⟩

variable {toLowerCase : String → String} {w w' : SectionWorld}

theorem obeys_body {request : SectionRequest} (hown : ∀ k, s.sections.own i k = none)
    (hnames : request.names.all s.Known = true) :
    sectionContract.Obeys i (fun _ _ => True) (request.body toLowerCase) s := by
  have hnamed : ∀ k, request.names = some k → (s.sections.committed k).isSome ∨ s.Gone k :=
    fun k hk => by
      rw [hk] at hnames
      exact known_iff hnames
  have hdone : ∀ {α : Type} (r : Except Fault α) (t : SectionDesk),
      sectionContract.After i (fun _ _ => True) (fun _ : α => Pure.pure ()) r t := fun r t => by
    cases r with
    | ok a => exact fun _ _ => trivial
    | error e => trivial
  cases request with
  | update id dto =>
      exact Contract.Obeys.bind (Contract.Obeys.mono (fun r t _ => hdone r t)
        (obeys_update hown hnamed))
  | create dto =>
      exact Contract.Obeys.bind (Contract.Obeys.mono (fun r t _ => hdone r t) (obeys_create hown))
  | remove id => exact obeys_remove hown hnamed
  | addContent c => exact obeys_addContent hown

abbrev SectionsKept (w : SectionWorld) : Prop := sectionContract.Kept (fun _ _ _ => True) w

/-- A call that comes in names a section that somebody has seen. -/
theorem sectionStep_start {request : SectionRequest}
    (h : sectionStep toLowerCase w (.start request) = some w') :
    request.names.all w.state.Known = true ∧
      w' = { w with threads := w.threads ++ [request.body toLowerCase] } := by
  have h' : (if request.names.all w.state.Known then
      some { w with threads := w.threads ++ [request.body toLowerCase] } else none) = some w' := h
  split at h'
  next hnames => exact ⟨hnames, (Option.some.inj h').symm⟩
  next => cases h'

theorem sectionStep_keeps {a : Act SectionRequest SectionInput} (hw : SectionsKept w)
    (h : sectionStep toLowerCase w a = some w') : SectionsKept w' := by
  cases a with
  | start request =>
      obtain ⟨hnames, rfl⟩ := sectionStep_start h
      exact hw.start (obeys_body (hw.fresh _ (le_refl _)) hnames)
  | run i x =>
      have h' : World.step sectionContract.exec (SectionRequest.body toLowerCase) w (.run i x) =
        some w' := h
      exact hw.perform h'

theorem sectionStep_leavesEmpty {a : Act SectionRequest SectionInput} (hw : SectionsKept w)
    (h : sectionStep toLowerCase w a = some w') : LeavesEmpty w.state w'.state := by
  cases a with
  | start request =>
      obtain ⟨-, rfl⟩ := sectionStep_start h
      exact leavesEmpty_of_same rfl
  | run i x =>
      have h' : World.step sectionContract.exec (SectionRequest.body toLowerCase) w (.run i x) =
        some w' := h
      obtain ⟨o, next, r, t, hp, he, rfl⟩ := Contract.step_run h'
      exact exec_leavesEmpty hw.inv (hw.threads i _ hp).1 he

/-- No call is in progress, and what there is has its section. -/
structure AtRest (s : SectionDesk) : Prop where
  sections : ∀ i k, s.sections.own i k = none
  contents : ∀ i m, s.contents.own i m = none
  shares : s.shares = []
  found : ∀ i, s.found i = none
  references : ∀ m c, s.contents.committed m = some c →
    (s.sections.committed c.sectionId).isSome

theorem AtRest.inv (h : s.AtRest) (hshown : ∃ k, s.Shown k) : s.Inv where
  visible := hshown
  compare i j ids ids' hi _ := by
    rw [h.found] at hi
    cases hi
  found i ids hi := by
    rw [h.found] at hi
    cases hi
  shares l hl := by
    rw [h.shares] at hl
    cases hl
  references := h.references
  inserted i m c hc := by
    rw [h.contents] at hc
    cases hc
  emptied i k hk := by
    rw [h.sections] at hk
    cases hk
  cleared i m hm := by
    rw [h.contents] at hm
    cases hm

theorem AtRest.kept (h : s.AtRest) (hshown : ∃ k, s.Shown k) :
    SectionsKept { state := s } :=
  ⟨h.inv hshown, fun i p hp => by simp at hp, fun i _ k => h.sections i k⟩

/-- **One section stays open**, and a section that is deleted had nothing in it that counts. -/
theorem one_section_stays_open (toLowerCase : String → String) {s : SectionDesk}
    {w : SectionWorld} (as : List (Act SectionRequest SectionInput)) (hs : s.AtRest)
    (hshown : ∃ k, s.Shown k)
    (hrun : Machine.runFrom (sectionStep toLowerCase) { state := s } as = some w) :
    (∃ k, w.state.Shown k) ∧
      (∀ m c, w.state.contents.committed m = some c →
        (w.state.sections.committed c.sectionId).isSome) ∧
      ∀ a w', sectionStep toLowerCase w a = some w' → LeavesEmpty w.state w'.state := by
  have hkept : SectionsKept w :=
    Machine.runFrom_invariant (fun _ _ _ hk hstep => sectionStep_keeps hk hstep) as _ _
      (hs.kept hshown) hrun
  exact ⟨hkept.inv.visible, hkept.inv.references, fun a w' h => sectionStep_leavesEmpty hkept h⟩

section twoSections

def booksAndToys : SectionDesk where
  sections := Table.ofList
    [{ code := "books", nameBn := "বই", nameEn := "Books" },
     { code := "toys", nameBn := "খেলনা", nameEn := "Toys" }]
  contents := Table.ofList [{ kind := .product, sectionId := 0 }]

/-- While one call hides the books, another is deleting the toys, a third one opens a section
and a fourth one puts a product into the toys. -/
def managersActs : List (Act SectionRequest SectionInput) :=
  [.start (.update (some 0) { isVisible := some false }), .start (.remove (some 1)),
   .start (.create { code := " Gifts", nameBn := "উপহার", nameEn := "Gifts" }),
   .start (.addContent { kind := .product, sectionId := 1 }),
   .run 0 {}, .run 1 {}, .run 2 {}, .run 0 {}, .run 2 {}, .run 0 {}, .run 2 {}, .run 2 {}, .run 2 {},
   .run 0 {}, .run 0 {}, .run 0 {}, .run 0 {}, .run 0 {}, .run 0 {}, .run 0 {}, .run 3 {}, .run 3 {},
   .run 1 {}, .run 1 {}, .run 1 {}, .run 1 {}, .run 1 {}]

theorem booksAndToys_atRest : booksAndToys.AtRest := by
  refine ⟨fun _ _ => rfl, fun _ _ => rfl, rfl, fun _ => rfl, fun m c hc => ?_⟩
  cases m with
  | zero =>
      obtain rfl := Option.some.inj hc
      rfl
  | succ m => cases hc

theorem one_section_stays_open_books : ∃ w,
    Machine.runFrom (sectionStep String.toLower) { state := booksAndToys } managersActs = some w ∧
      (∃ k, w.state.Shown k) ∧
      (∀ m c, w.state.contents.committed m = some c →
        (w.state.sections.committed c.sectionId).isSome) ∧
      ∀ a w', sectionStep String.toLower w a = some w' → LeavesEmpty w.state w'.state := by
  have hrun : (Machine.runFrom (sectionStep String.toLower) { state := booksAndToys }
      managersActs).isSome := by decide +kernel
  obtain ⟨w, hw⟩ := Option.isSome_iff_exists.mp hrun
  exact ⟨w, hw, one_section_stays_open String.toLower managersActs booksAndToys_atRest
    ⟨0, _, rfl, rfl⟩ hw⟩

end twoSections

end SectionDesk

end BookHouse
