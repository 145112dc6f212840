/-
Tables with unique indexes, written statement by statement.

An index says of two rows whether they may stand in the table together, so a table carries
the fact that its rows do.  A statement writes its rows one after the other and each write is
checked against what is there at that moment.  So the order of the writes matters: a mark
that moves from one row to another is refused where it is set before it is cleared.

The second part is about such a mark.  The index says that a group has at most one marked
row; that a group with members has one is what the statements of a program have to keep.
-/
import BookHouse.Lib.Result
import Mathlib.Data.List.Basic
import Mathlib.Data.List.Count
import Mathlib.Data.List.Pairwise

/-- A unique index, with the error of a statement that breaks it. -/
structure UniqueIndex (ε ρ : Type*) where
  error : ε
  /-- the two rows cannot both be there -/
  clash : ρ → ρ → Bool
  symm : ∀ a b, clash a b = clash b a

/-- `CREATE UNIQUE INDEX … (column) WHERE covers` -/
def UniqueIndex.on {ε ρ κ : Type*} [DecidableEq κ] (error : ε) (covers : ρ → Bool)
    (column : ρ → κ) : UniqueIndex ε ρ where
  error
  clash a b := covers a && covers b && decide (column a = column b)
  symm a b := by
    have hcol : decide (column a = column b) = decide (column b = column a) :=
      decide_eq_decide.mpr eq_comm
    rw [hcol, Bool.and_comm (covers a)]

/-- No index keeps the two rows apart. -/
def Beside {ε ρ : Type*} (indexes : List (UniqueIndex ε ρ)) (a b : ρ) : Prop :=
  ∀ ix ∈ indexes, ix.clash a b = false

/-- Rows that the indexes let stand together. -/
structure IndexedTable {ε ρ : Type*} (indexes : List (UniqueIndex ε ρ)) where
  rows : List ρ
  beside : rows.Pairwise (Beside indexes)

namespace IndexedTable

open Result

variable {ε ρ : Type*} {indexes : List (UniqueIndex ε ρ)}

theorem Beside.symm {a b : ρ} (h : Beside indexes a b) : Beside indexes b a := fun ix hix =>
  (ix.symm b a).trans (h ix hix)

def empty : IndexedTable indexes := ⟨[], .nil⟩

/-- The first index that the row would break, among the rows that are there. -/
def refusal (indexes : List (UniqueIndex ε ρ)) (others : List ρ) (r : ρ) : Option ε :=
  (indexes.find? fun ix => others.any (ix.clash r)).map (·.error)

theorem refusal_none {others : List ρ} {r : ρ} (h : refusal indexes others r = none) :
    ∀ x ∈ others, Beside indexes r x := by
  intro x hx ix hix
  have hnone := List.find?_eq_none.mp (Option.map_eq_none_iff.mp h) ix hix
  simpa using fun hc => hnone (List.any_eq_true.mpr ⟨x, hx, hc⟩)

theorem refusal_some {others : List ρ} {r : ρ} {e : ε} (h : refusal indexes others r = some e) :
    ∃ ix ∈ indexes, ix.error = e ∧ ∃ x ∈ others, ix.clash r x = true := by
  obtain ⟨ix, hfind, rfl⟩ := Option.map_eq_some_iff.mp h
  have hix := List.mem_of_find?_eq_some hfind
  have hany := List.find?_some hfind
  exact ⟨ix, hix, rfl, List.any_eq_true.mp hany⟩

/-- Replacing a row by one that goes with the others. -/
theorem beside_set {done rest : List ρ} {r r' : ρ}
    (h : (done ++ r :: rest).Pairwise (Beside indexes))
    (hr : ∀ x ∈ done ++ rest, Beside indexes r' x) :
    (done ++ r' :: rest).Pairwise (Beside indexes) := by
  obtain ⟨hdone, hrest, hcross⟩ := List.pairwise_append.mp h
  obtain ⟨-, hrest⟩ := List.pairwise_cons.mp hrest
  refine List.pairwise_append.mpr ⟨hdone, List.pairwise_cons.mpr ⟨?_, hrest⟩, ?_⟩
  · exact fun x hx => hr x (List.mem_append_right _ hx)
  · intro x hx y hy
    rcases List.mem_cons.mp hy with rfl | hy
    · exact Beside.symm (hr x (List.mem_append_left _ hx))
    · exact hcross x hx y (List.mem_cons_of_mem _ hy)

/-! ### Statements -/

/-- `INSERT` of one row -/
def insert (t : IndexedTable indexes) (r : ρ) : Except ε (IndexedTable indexes) :=
  match h : refusal indexes t.rows r with
  | some e => .error e
  | none => .ok ⟨t.rows ++ [r], List.pairwise_append.mpr ⟨t.beside, List.pairwise_singleton _ _,
      fun x hx y hy => by
        obtain rfl := List.mem_singleton.mp hy
        exact Beside.symm (refusal_none h x hx)⟩⟩

/-- `INSERT` of several rows -/
def insertMany (t : IndexedTable indexes) (rs : List ρ) : Except ε (IndexedTable indexes) :=
  rs.foldlM insert t

/-- What an update leaves of a row. -/
def rewrite (p : ρ → Bool) (f : ρ → ρ) (r : ρ) : ρ := if p r then f r else r

/-- The writes of an update; `done` has been gone through. -/
def updateFrom (indexes : List (UniqueIndex ε ρ)) (p : ρ → Bool) (f : ρ → ρ) (done : List ρ) :
    List ρ → Except ε (List ρ)
  | [] => .ok done
  | r :: rest =>
    if p r then
      match refusal indexes (done ++ rest) (f r) with
      | some e => .error e
      | none => updateFrom indexes p f (done ++ [f r]) rest
    else updateFrom indexes p f (done ++ [r]) rest

/-- What an accepted update leaves. -/
theorem updateFrom_ok {p : ρ → Bool} {f : ρ → ρ} :
    ∀ (rest done out : List ρ), (done ++ rest).Pairwise (Beside indexes) →
      updateFrom indexes p f done rest = .ok out →
      out = done ++ rest.map (rewrite p f) ∧ out.Pairwise (Beside indexes) := by
  intro rest
  induction rest with
  | nil =>
      intro done out hpair h
      obtain rfl := Except.ok.inj h
      exact ⟨by simp, by simpa using hpair⟩
  | cons r rest ih =>
      intro done out hpair h
      rw [updateFrom] at h
      by_cases hp : p r
      · rw [if_pos hp] at h
        cases href : refusal indexes (done ++ rest) (f r) with
        | some e => simp [href] at h
        | none =>
            simp only [href] at h
            have hset := beside_set hpair (refusal_none href)
            obtain ⟨rfl, hout⟩ := ih (done ++ [f r]) out (by simpa using hset) h
            exact ⟨by simp [rewrite, hp], hout⟩
      · rw [if_neg hp] at h
        obtain ⟨rfl, hout⟩ := ih (done ++ [r]) out (by simpa using hpair) h
        exact ⟨by simp [rewrite, hp], hout⟩

/-- `UPDATE … SET f WHERE p` -/
def update (t : IndexedTable indexes) (p : ρ → Bool) (f : ρ → ρ) :
    Except ε (IndexedTable indexes) :=
  match h : updateFrom indexes p f [] t.rows with
  | .error e => .error e
  | .ok rows => .ok ⟨rows, (updateFrom_ok t.rows [] rows t.beside h).2⟩

/-- `DELETE … WHERE p` -/
def delete (t : IndexedTable indexes) (p : ρ → Bool) : IndexedTable indexes :=
  ⟨t.rows.filter fun r => !p r, t.beside.filter _⟩

theorem rewrite_of_pos {p : ρ → Bool} {f : ρ → ρ} {r : ρ} (h : p r) : rewrite p f r = f r :=
  if_pos h

theorem rewrite_of_neg {p : ρ → Bool} {f : ρ → ρ} {r : ρ} (h : ¬p r) : rewrite p f r = r :=
  if_neg h

/-- A column that the update does not write. -/
theorem rewrite_keeps {γ : Type*} {p : ρ → Bool} {f : ρ → ρ} {g : ρ → γ}
    (h : ∀ r, g (f r) = g r) (r : ρ) : g (rewrite p f r) = g r := by
  by_cases hp : p r
  · rw [rewrite_of_pos hp, h]
  · rw [rewrite_of_neg hp]

/-- A row is still there, as it was or updated. -/
theorem exists_rewrite {p : ρ → Bool} {f : ρ → ρ} {rows rows' : List ρ} {a : ρ} (ha : a ∈ rows)
    (h : rows' = rows.map (rewrite p f)) : ∃ b ∈ rows', b = a ∨ b = f a := by
  refine ⟨rewrite p f a, h ▸ List.mem_map_of_mem ha, ?_⟩
  by_cases hp : p a
  · exact .inr (rewrite_of_pos hp)
  · exact .inl (rewrite_of_neg hp)

/-- What an update of one row leaves. -/
theorem mem_map_rewrite {p : ρ → Bool} {f : ρ → ρ} {rows : List ρ} {a : ρ} (ha : a ∈ rows)
    (hp : p a) (hone : ∀ x ∈ rows, p x → x = a) {y : ρ} :
    y ∈ rows.map (rewrite p f) ↔ y = f a ∨ (y ∈ rows ∧ ¬p y) := by
  rw [List.mem_map]
  constructor
  · rintro ⟨x, hx, rfl⟩
    by_cases hpx : p x
    · exact .inl (by rw [rewrite_of_pos hpx, hone x hx hpx])
    · exact .inr (by rw [rewrite_of_neg hpx]; exact ⟨hx, hpx⟩)
  · rintro (rfl | ⟨hy, hpy⟩)
    · exact ⟨a, ha, rewrite_of_pos hp⟩
    · exact ⟨y, hy, rewrite_of_neg hpy⟩

/-! ### What a statement leaves, and which index it cannot break -/

variable {t : IndexedTable indexes} {e : ε} {p : ρ → Bool} {f : ρ → ρ} {r : ρ}

theorem clash_of_mem {ix : UniqueIndex ε ρ} (hix : ix ∈ indexes) :
    t.rows.Pairwise fun a b => ix.clash a b = false := t.beside.imp fun h => h ix hix

/-- Two rows that are there do not clash. -/
theorem clash_of_ne {ix : UniqueIndex ε ρ} (hix : ix ∈ indexes) {a b : ρ} (ha : a ∈ t.rows)
    (hb : b ∈ t.rows) (hne : a ≠ b) : ix.clash a b = false := by
  have : Std.Symm fun a b => ix.clash a b = false := ⟨fun a b h => (ix.symm b a).trans h⟩
  exact (clash_of_mem hix).forall ha hb hne

theorem insert_spares
    (h : ∀ ix ∈ indexes, ix.error = e → ∀ x ∈ t.rows, ix.clash r x = false) :
    Spares e (fun t' => t'.rows = t.rows ++ [r]) (t.insert r) := by
  rw [insert]
  split
  next e' href =>
    rintro rfl
    obtain ⟨ix, hix, he, x, hx, hc⟩ := refusal_some href
    rw [h ix hix he x hx] at hc
    cases hc
  next => rfl

theorem insertMany_spares :
    ∀ (rs : List ρ) (t : IndexedTable indexes),
      (∀ ix ∈ indexes, ix.error = e → ∀ r ∈ rs, ∀ x ∈ t.rows, ix.clash r x = false) →
      (∀ ix ∈ indexes, ix.error = e → rs.Pairwise fun a b => ix.clash a b = false) →
      Spares e (fun t' => t'.rows = t.rows ++ rs) (t.insertMany rs) := by
  intro rs
  induction rs with
  | nil =>
      intro t _ _
      exact (List.append_nil _).symm
  | cons r rest ih =>
      intro t hold hpair
      rw [insertMany, List.foldlM_cons]
      refine (insert_spares fun ix hix he => hold ix hix he r List.mem_cons_self).bind
        fun t' ht' => ?_
      refine (ih t' (fun ix hix he a ha x hx => ?_) fun ix hix he =>
        (List.pairwise_cons.mp (hpair ix hix he)).2).mono fun t'' ht'' => by simp [ht'', ht']
      rw [ht'] at hx
      rcases List.mem_append.mp hx with hx | hx
      · exact hold ix hix he a (List.mem_cons_of_mem _ ha) x hx
      · obtain rfl := List.mem_singleton.mp hx
        exact (ix.symm a x).trans ((List.pairwise_cons.mp (hpair ix hix he)).1 a ha)

theorem updateFrom_spares :
    ∀ rest done : List ρ,
      (∀ ix ∈ indexes, ix.error = e → ∀ x ∈ done, ∀ r ∈ rest, p r → ix.clash (f r) x = false) →
      (∀ ix ∈ indexes, ix.error = e → rest.Pairwise fun a b =>
        (p a → ix.clash (f a) b = false) ∧ (p b → ix.clash (f b) (rewrite p f a) = false)) →
      updateFrom indexes p f done rest ≠ .error e := by
  intro rest
  induction rest with
  | nil =>
      intro done _ _ h
      cases h
  | cons r rest ih =>
      intro done hdone hpair
      have hhead := fun ix hix he => (List.pairwise_cons.mp (hpair ix hix he)).1
      have hnext : updateFrom indexes p f (done ++ [rewrite p f r]) rest ≠ .error e := by
        refine ih _ (fun ix hix he x hx y hy hp => ?_) fun ix hix he =>
          (List.pairwise_cons.mp (hpair ix hix he)).2
        rcases List.mem_append.mp hx with hx | hx
        · exact hdone ix hix he x hx y (List.mem_cons_of_mem _ hy) hp
        · obtain rfl := List.mem_singleton.mp hx
          exact (hhead ix hix he y hy).2 hp
      rw [updateFrom]
      by_cases hp : p r
      · rw [rewrite, if_pos hp] at hnext
        rw [if_pos hp]
        cases href : refusal indexes (done ++ rest) (f r) with
        | none => exact hnext
        | some e' =>
            intro h
            obtain rfl : e' = e := Except.error.inj h
            obtain ⟨ix, hix, he, x, hx, hc⟩ := refusal_some href
            have hfree : ix.clash (f r) x = false := by
              rcases List.mem_append.mp hx with hx | hx
              · exact hdone ix hix he x hx r List.mem_cons_self hp
              · exact (hhead ix hix he x hx).1 hp
            rw [hfree] at hc
            cases hc
      · rw [rewrite, if_neg hp] at hnext
        rw [if_neg hp]
        exact hnext

theorem update_spares
    (h : ∀ ix ∈ indexes, ix.error = e → t.rows.Pairwise fun a b =>
      (p a → ix.clash (f a) b = false) ∧ (p b → ix.clash (f b) (rewrite p f a) = false)) :
    Spares e (fun t' => t'.rows = t.rows.map (rewrite p f)) (t.update p f) := by
  rw [update]
  split
  next e' hup =>
    rintro rfl
    exact updateFrom_spares t.rows [] (fun _ _ _ x hx => by simp at hx) h hup
  next rows hup =>
    show rows = _
    simpa using (updateFrom_ok t.rows [] rows t.beside hup).1

/-- An update that frees what it touches of the index. -/
theorem update_spares_of_shrinks
    (h : ∀ ix ∈ indexes, ix.error = e → ∀ a x, ix.clash (f a) x → ix.clash a x) :
    Spares e (fun t' => t'.rows = t.rows.map (rewrite p f)) (t.update p f) := by
  refine update_spares fun ix hix he => (clash_of_mem hix).imp fun {a b} hab => ?_
  have hba : ix.clash b a = false := (ix.symm b a).trans hab
  have hkeeps : ∀ {x y}, ix.clash x y = false → ix.clash (f x) y = false := by
    intro x y hxy
    rw [← Bool.not_eq_true]
    intro hc
    rw [h ix hix he x y hc] at hxy
    cases hxy
  refine ⟨fun _ => hkeeps hab, fun _ => hkeeps ?_⟩
  by_cases hp : p a
  · rw [rewrite, if_pos hp, ix.symm]
    exact hkeeps hab
  · rw [rewrite, if_neg hp]
    exact hba

/-- An update of one row that goes with every row there is. -/
theorem update_spares_of_single (hone : t.rows.Pairwise fun a b => ¬(p a ∧ p b))
    (h : ∀ ix ∈ indexes, ix.error = e → ∀ a ∈ t.rows, p a → ∀ x ∈ t.rows,
      ix.clash (f a) x = false) :
    Spares e (fun t' => t'.rows = t.rows.map (rewrite p f)) (t.update p f) := by
  refine update_spares fun ix hix he => hone.imp_of_mem fun {a b} ha hb hab => ?_
  refine ⟨fun hp => h ix hix he a ha hp b hb, fun hp => ?_⟩
  have hpa : ¬p a := fun hpa => hab ⟨hpa, hp⟩
  rw [rewrite, if_neg hpa]
  exact h ix hix he b hb hp a ha

end IndexedTable

/-! ### A mark that one member of each group has -/

namespace Marks

variable {ρ κ : Type*} (group : ρ → κ) (member marked : ρ → Bool)

/-- The group has a marked member, if it has one at all. -/
def Served (k : κ) (rows : List ρ) : Prop :=
  (∃ a ∈ rows, group a = k ∧ member a) → ∃ d ∈ rows, group d = k ∧ member d ∧ marked d

variable {group member marked} {k : κ} {rows rows' : List ρ} {r d : ρ}

theorem served_of_mem (hd : d ∈ rows) (hk : group d = k) (hmem : member d) (hmark : marked d) :
    Served group member marked k rows := fun _ => ⟨d, hd, hk, hmem, hmark⟩

/-- A group whose rows are the same as before. -/
theorem Served.congr (h : Served group member marked k rows)
    (hrows : ∀ r, group r = k → (r ∈ rows' ↔ r ∈ rows)) :
    Served group member marked k rows' := by
  rintro ⟨a, ha, hk, hmem⟩
  obtain ⟨d, hd, hdk, hd'⟩ := h ⟨a, (hrows a hk).mp ha, hk, hmem⟩
  exact ⟨d, (hrows d hdk).mpr hd, hdk, hd'⟩

/-- An update that keeps the group's members and their marks. -/
theorem Served.map {f : ρ → ρ} (h : Served group member marked k rows)
    (hf : ∀ r ∈ rows, group (f r) = group r ∧ member (f r) = member r ∧
      (group r = k → marked (f r) = marked r)) :
    Served group member marked k (rows.map f) := by
  rintro ⟨a, ha, hk, hmem⟩
  obtain ⟨b, hb, rfl⟩ := List.mem_map.mp ha
  obtain ⟨hgroup, hmember, -⟩ := hf b hb
  obtain ⟨d, hd, hdk, hdmem, hdmark⟩ := h ⟨b, hb, hgroup ▸ hk, hmember ▸ hmem⟩
  obtain ⟨hgroup', hmember', hmarked⟩ := hf d hd
  exact ⟨f d, List.mem_map_of_mem hd, hgroup'.trans hdk, hmember' ▸ hdmem, hmarked hdk ▸ hdmark⟩

theorem Served.append (h : Served group member marked k rows)
    (hr : group r = k → member r → marked r ∨ ∃ a ∈ rows, group a = k ∧ member a) :
    Served group member marked k (rows ++ [r]) := by
  have hold : (∃ a ∈ rows, group a = k ∧ member a) →
      ∃ d ∈ rows ++ [r], group d = k ∧ member d ∧ marked d := fun ha => by
    obtain ⟨d, hd, hd'⟩ := h ha
    exact ⟨d, List.mem_append_left _ hd, hd'⟩
  rintro ⟨a, ha, hk, hmem⟩
  rcases List.mem_append.mp ha with ha | ha
  · exact hold ⟨a, ha, hk, hmem⟩
  · obtain rfl := List.mem_singleton.mp ha
    rcases hr hk hmem with hmark | hothers
    · exact ⟨a, List.mem_append_right _ (List.mem_singleton_self a), hk, hmem, hmark⟩
    · exact hold hothers

theorem countP_le_one {q : ρ → Bool} (h : rows.Pairwise fun a b => ¬(q a ∧ q b)) :
    rows.countP q ≤ 1 := by
  induction rows with
  | nil => simp
  | cons a rest ih =>
      obtain ⟨hhead, hrest⟩ := List.pairwise_cons.mp h
      rw [List.countP_cons]
      by_cases ha : q a
      · have hzero : rest.countP q = 0 := List.countP_eq_zero.mpr fun b hb hq => hhead b hb ⟨ha, hq⟩
        simp [hzero, ha]
      · simpa [ha] using ih hrest

/-- With the index, a served group has exactly one marked member, or no member at all. -/
theorem Served.countP [DecidableEq κ] (h : Served group member marked k rows)
    (hone : rows.Pairwise fun a b => ¬((group a = k ∧ member a ∧ marked a) ∧
      (group b = k ∧ member b ∧ marked b))) :
    rows.countP (fun r => group r = k && (member r && marked r)) =
      if rows.any fun r => group r = k && member r then 1 else 0 := by
  by_cases hany : rows.any fun r => group r = k && member r
  · rw [if_pos hany]
    obtain ⟨a, ha, hmem⟩ := List.any_eq_true.mp hany
    obtain ⟨d, hd, hdk, hdmem, hdmark⟩ := h ⟨a, ha, by simpa using hmem⟩
    have hpos : 0 < rows.countP fun r => group r = k && (member r && marked r) :=
      List.countP_pos_iff.mpr ⟨d, hd, by simp [hdk, hdmem, hdmark]⟩
    have hle : rows.countP (fun r => group r = k && (member r && marked r)) ≤ 1 :=
      countP_le_one (hone.imp fun {a b} hab => by simpa using hab)
    omega
  · rw [if_neg hany]
    refine List.countP_eq_zero.mpr fun r hr hq => hany (List.any_eq_true.mpr ⟨r, hr, ?_⟩)
    simp only [Bool.and_eq_true] at hq ⊢
    exact ⟨hq.1, hq.2.1⟩

/-! ### Statements that move the mark -/

section statements

open IndexedTable Result

variable {ε : Type*} {indexes : List (UniqueIndex ε ρ)} {t : IndexedTable indexes} {e : ε}
  {p : ρ → Bool} {f : ρ → ρ} {a : ρ}

variable (indexes e group member marked) in
/-- The index with error `e` is the one of the mark. -/
def OnePerGroup : Prop := ∀ ix ∈ indexes, ix.error = e → ∀ a b, ix.clash a b = true ↔
  (member a ∧ marked a) ∧ (member b ∧ marked b) ∧ group a = group b

variable (group member marked) in
/-- No member of the group is marked; the other groups are served. -/
structure Cleared (k : κ) (rows : List ρ) : Prop where
  served : ∀ j, j ≠ k → Served group member marked j rows
  none : ∀ a ∈ rows, group a = k → member a → marked a = false

theorem Cleared.all_served (h : Cleared group member marked k rows)
    (hk : Served group member marked k rows) (j : κ) : Served group member marked j rows := by
  rcases eq_or_ne j k with rfl | hj
  · exact hk
  · exact h.served j hj

variable (hix : OnePerGroup group member marked indexes e)

include hix

theorem OnePerGroup.free {ix : UniqueIndex ε ρ} (hmem : ix ∈ indexes) (he : ix.error = e) {b : ρ}
    (h : ¬((member a ∧ marked a) ∧ (member b ∧ marked b) ∧ group a = group b)) :
    ix.clash a b = false := by
  rw [← Bool.not_eq_true, hix ix hmem he]
  exact h

/-- Writing columns that the mark does not depend on. -/
theorem keep_spares (h : ∀ j, Served group member marked j t.rows)
    (hf : ∀ r, group (f r) = group r ∧ member (f r) = member r ∧ marked (f r) = marked r) :
    Spares e (fun t' => t'.rows = t.rows.map (rewrite p f) ∧
      ∀ j, Served group member marked j t'.rows) (t.update p f) := by
  refine (update_spares_of_shrinks fun ix hmem he x y hclash => ?_).mono fun t' hrows =>
    ⟨hrows, fun j => ?_⟩
  · obtain ⟨hgroup, hmember, hmarked⟩ := hf x
    rw [hix ix hmem he, hgroup, hmember, hmarked] at hclash
    exact (hix ix hmem he x y).mpr hclash
  · rw [hrows]
    refine (h j).map fun r _ => ⟨rewrite_keeps (fun r => (hf r).1) r,
      rewrite_keeps (fun r => (hf r).2.1) r, fun _ => rewrite_keeps (fun r => (hf r).2.2) r⟩

/-- Taking the mark off a group. -/
theorem clear_spares (h : ∀ j, Served group member marked j t.rows)
    (hp : ∀ r, p r ↔ group r = k ∧ member r ∧ marked r)
    (hf : ∀ r, group (f r) = group r ∧ member (f r) = member r ∧ marked (f r) = false) :
    Spares e (fun t' => t'.rows = t.rows.map (rewrite p f) ∧
      Cleared group member marked k t'.rows) (t.update p f) := by
  have hgroup := rewrite_keeps (p := p) fun r => (hf r).1
  have hmember := rewrite_keeps (p := p) fun r => (hf r).2.1
  refine (update_spares_of_shrinks fun ix hmem he x y hclash => ?_).mono fun t' hrows =>
    ⟨hrows, fun j hj => ?_, fun x hx hxk hxmem => ?_⟩
  · rw [hix ix hmem he, (hf x).2.2] at hclash
    exact absurd hclash.1.2 Bool.false_ne_true
  · rw [hrows]
    refine (h j).map fun r _ => ⟨hgroup r, hmember r, fun hr => ?_⟩
    rw [rewrite_of_neg fun hpr => hj (hr.symm.trans ((hp r).mp hpr).1)]
  · rw [hrows] at hx
    obtain ⟨r, hr, rfl⟩ := List.mem_map.mp hx
    by_cases hpr : p r
    · rw [rewrite_of_pos hpr]
      exact (hf r).2.2
    · rw [rewrite_of_neg hpr] at hxk hxmem ⊢
      rw [← Bool.not_eq_true]
      exact fun hmark => hpr ((hp r).mpr ⟨hxk, hxmem, hmark⟩)

/-- Marking a member of a group that has no mark. -/
theorem mark_spares (h : Cleared group member marked k t.rows)
    (hone : t.rows.Pairwise fun x y => ¬(p x ∧ p y)) (ha : a ∈ t.rows) (hpa : p a)
    (hk : group a = k) (hfa : group (f a) = k ∧ member (f a) ∧ marked (f a)) :
    Spares e (fun t' => t'.rows = t.rows.map (rewrite p f) ∧
      ∀ j, Served group member marked j t'.rows) (t.update p f) := by
  have honly : ∀ x ∈ t.rows, p x → x = a := fun x hx hpx => by
    have : Std.Symm fun x y => ¬(p x ∧ p y) := ⟨fun x y hxy hyx => hxy hyx.symm⟩
    by_contra hne
    exact hone.forall hx ha hne ⟨hpx, hpa⟩
  refine (update_spares_of_single hone fun ix hmem he x hx hpx y hy => ?_).mono fun t' hrows =>
    ⟨hrows, fun j => ?_⟩
  · obtain rfl := honly x hx hpx
    refine hix.free hmem he fun hclash => ?_
    obtain ⟨-, ⟨hymem, hymark⟩, hxy⟩ := hclash
    rw [h.none y hy (hxy.symm.trans hfa.1) hymem] at hymark
    exact Bool.false_ne_true hymark
  · have hmem := fun y => mem_map_rewrite (f := f) ha hpa honly (y := y)
    rw [← hrows] at hmem
    rcases eq_or_ne j k with rfl | hj
    · exact served_of_mem ((hmem (f a)).mpr (.inl rfl)) hfa.1 hfa.2.1 hfa.2.2
    · refine (h.served j hj).congr fun r hr => ?_
      have hra : r ≠ f a := fun hc => hj (hr.symm.trans (hc ▸ hfa.1))
      have hpr : r ∈ t.rows → ¬p r := fun hmemr hpr =>
        hj (hr.symm.trans (honly r hmemr hpr ▸ hk))
      rw [hmem r]
      exact ⟨fun hor => (hor.resolve_left hra).1, fun hmemr => .inr ⟨hmemr, hpr hmemr⟩⟩

/-- Adding a marked member to a group that has no mark. -/
theorem insert_marked_spares (h : Cleared group member marked (group a) t.rows)
    (hmem : member a) (hmark : marked a) :
    Spares e (fun t' => t'.rows = t.rows ++ [a] ∧ ∀ j, Served group member marked j t'.rows)
      (t.insert a) := by
  refine (insert_spares fun ix hixmem he x hx => ?_).mono fun t' hrows => ⟨hrows, fun j => ?_⟩
  · refine hix.free hixmem he fun hclash => ?_
    obtain ⟨-, ⟨hxmem, hxmark⟩, hax⟩ := hclash
    rw [h.none x hx hax.symm hxmem] at hxmark
    exact Bool.false_ne_true hxmark
  · rw [hrows]
    rcases eq_or_ne j (group a) with rfl | hj
    · exact served_of_mem (List.mem_append_right _ (List.mem_singleton_self a)) rfl hmem hmark
    · exact (h.served j hj).append fun hja => absurd hja.symm hj

/-- Adding a plain member to a group that has members. -/
theorem insert_plain_spares (h : ∀ j, Served group member marked j t.rows)
    (hmark : marked a = false) (hex : ∃ x ∈ t.rows, group x = group a ∧ member x) :
    Spares e (fun t' => t'.rows = t.rows ++ [a] ∧ ∀ j, Served group member marked j t'.rows)
      (t.insert a) := by
  refine (insert_spares fun ix hixmem he x hx => ?_).mono fun t' hrows => ⟨hrows, fun j => ?_⟩
  · refine hix.free hixmem he fun hclash => ?_
    rw [hmark] at hclash
    exact Bool.false_ne_true hclash.1.2
  · rw [hrows]
    refine (h j).append fun hja _ => .inr ?_
    rwa [hja] at hex

/-- A new group, with one marked member. -/
theorem group_spares {rs : List ρ} (h : ∀ j, Served group member marked j t.rows)
    (hnew : ∀ x ∈ t.rows, group x ≠ k) (hk : ∀ r ∈ rs, group r = k)
    (hone : rs.Pairwise fun a b => ¬(marked a ∧ marked b))
    (hmark : rs ≠ [] → ∃ d ∈ rs, member d ∧ marked d) :
    Spares e (fun t' => t'.rows = t.rows ++ rs ∧ ∀ j, Served group member marked j t'.rows)
      (t.insertMany rs) := by
  refine (insertMany_spares rs t (fun ix hmem he r hr x hx => ?_) fun ix hmem he => ?_).mono
    fun t' hrows => ⟨hrows, fun j => ?_⟩
  · exact hix.free hmem he fun hclash => hnew x hx (hclash.2.2.symm.trans (hk r hr))
  · exact hone.imp fun {a b} hab => hix.free hmem he fun hclash => hab ⟨hclash.1.2, hclash.2.1.2⟩
  · rw [hrows]
    rcases eq_or_ne j k with rfl | hj
    · rintro ⟨a, ha, haj, -⟩
      have hars : a ∈ rs := (List.mem_append.mp ha).resolve_left fun hold => hnew a hold haj
      obtain ⟨d, hd, hdmem, hdmark⟩ := hmark (List.ne_nil_of_mem hars)
      exact ⟨d, List.mem_append_right _ hd, hk d hd, hdmem, hdmark⟩
    · refine (h j).congr fun r hr => ⟨fun hmem => ?_, List.mem_append_left _⟩
      exact (List.mem_append.mp hmem).resolve_right fun hrs => hj (hr.symm.trans (hk r hrs))

omit hix

/-- Deleting rows that have no mark. -/
theorem delete_served (h : ∀ j, Served group member marked j t.rows)
    (hp : ∀ x ∈ t.rows, p x → marked x = false) (j : κ) :
    Served group member marked j (t.delete p).rows := by
  rintro ⟨x, hx, hxj, hxmem⟩
  obtain ⟨d, hd, hdj, hdmem, hdmark⟩ := h j ⟨x, (List.mem_filter.mp hx).1, hxj, hxmem⟩
  refine ⟨d, List.mem_filter.mpr ⟨hd, ?_⟩, hdj, hdmem, hdmark⟩
  rw [Bool.not_eq_true', ← Bool.not_eq_true]
  intro hpd
  rw [hp d hd hpd] at hdmark
  exact Bool.false_ne_true hdmark

/-- Deleting the marked row of a group. -/
theorem delete_cleared (h : ∀ j, Served group member marked j t.rows)
    (hp : ∀ x ∈ t.rows, p x → group x = k)
    (hall : ∀ x ∈ t.rows, group x = k → marked x → p x) :
    Cleared group member marked k (t.delete p).rows := by
  refine ⟨fun j hj => (h j).congr fun r hr => ?_, fun x hx hxk _ => ?_⟩
  · refine ⟨fun hmem => (List.mem_filter.mp hmem).1, fun hmem => List.mem_filter.mpr ⟨hmem, ?_⟩⟩
    rw [Bool.not_eq_true', ← Bool.not_eq_true]
    exact fun hpr => hj (hr.symm.trans (hp r hmem hpr))
  · obtain ⟨hmem, hnp⟩ := List.mem_filter.mp hx
    rw [← Bool.not_eq_true]
    intro hmark
    rw [hall x hmem hxk hmark] at hnp
    cases hnp

end statements

end Marks
