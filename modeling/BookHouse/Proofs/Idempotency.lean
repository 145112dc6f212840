/-
Two bodies are written the same way exactly when they say the same.

One way, the texts of two values are cut at the same place only if the values say the same:
by induction on one value, with its first character telling the kind of the other.  The other
way, members that say the same are the same pairs of key and text in some order, and sorting
by key forgets the order.
-/
import BookHouse.Orders.Idempotency
import BookHouse.Proofs.JsonText

namespace BookHouse

open Delimited

/-- Read as `null`: what is missing, in an array or at the top. -/
def JsValue.isNullish : JsValue → Prop
  | .null | .undefined => True
  | _ => False

/-- A string, or a date by its text. -/
def JsValue.asText : JsValue → Option JsString
  | .string s | .date s => some s
  | _ => none

/-- Equal up to the order of keys, undefined members dropped and undefined elements `null`. -/
inductive SameBody : JsValue → JsValue → Prop
  | null {a b : JsValue} (ha : a.isNullish) (hb : b.isNullish) : SameBody a b
  | boolean b : SameBody (.boolean b) (.boolean b)
  | number n : SameBody (.number n) (.number n)
  | text {a b : JsValue} {s : JsString} (ha : a.asText = some s) (hb : b.asText = some s) :
      SameBody a b
  | array {xs ys : List JsValue} (hlen : xs.length = ys.length)
      (h : ∀ i : ℕ, ∀ v w, xs[i]? = some v → ys[i]? = some w → SameBody v w) :
      SameBody (.array xs) (.array ys)
  | object {xs ys : List (JsString × JsValue)}
      (hkeys : ∀ k, member k xs = none ↔ member k ys = none)
      (h : ∀ k v w, member k xs = some v → member k ys = some w → SameBody v w) :
      SameBody (.object xs) (.object ys)

theorem JsValue.induction {P : JsValue → Prop} (null : P .null) (undefined : P .undefined)
    (boolean : ∀ b, P (.boolean b)) (number : ∀ n, P (.number n)) (string : ∀ s, P (.string s))
    (date : ∀ s, P (.date s)) (array : ∀ xs, (∀ v ∈ xs, P v) → P (.array xs))
    (object : ∀ ms, (∀ m ∈ ms, P m.2) → P (.object ms)) : ∀ v, P v
  | .null => null
  | .undefined => undefined
  | .boolean b => boolean b
  | .number n => number n
  | .string s => string s
  | .date s => date s
  | .array xs => array xs fun v _ =>
      JsValue.induction null undefined boolean number string date array object v
  | .object ms => object ms fun m _ =>
      JsValue.induction null undefined boolean number string date array object m.2
termination_by v => sizeOf v
decreasing_by
  · rename_i h
    have := List.sizeOf_lt_of_mem h
    simp
    omega
  · rename_i h
    have := List.sizeOf_lt_of_mem h
    cases m
    simp at *
    omega

/-! ### The text of a value -/

/-- The members that are not `undefined`. -/
def kept (members : List (JsString × JsValue)) : List (JsString × JsValue) :=
  members.filter fun m => !m.2.isUndefined

/-- A key and the text of its value. -/
def memberText (m : JsString × JsString) : JsString := quoteJson m.1 ++ 0x3A :: m.2

/-- The members of an object in the order they are written. -/
def sortedMembers (members : List (JsString × JsValue)) : List (JsString × JsString) :=
  List.insertionSort keyLe (stringifyMembers members)

theorem stringifyItems_map (xs : List JsValue) : stringifyItems xs = xs.map stableStringify := by
  induction xs with
  | nil => simp [stringifyItems]
  | cons v xs ih =>
      have hv : stringifyItems (v :: xs) = stableStringify v :: stringifyItems xs := by
        cases v
        all_goals simp [stringifyItems, stableStringify]
      rw [hv, ih, List.map_cons]

theorem stringifyMembers_map (ms : List (JsString × JsValue)) :
    stringifyMembers ms = (kept ms).map fun m => (m.1, stableStringify m.2) := by
  induction ms with
  | nil => simp [stringifyMembers, kept]
  | cons m ms ih =>
      obtain ⟨k, v⟩ := m
      unfold kept at ih ⊢
      cases v
      all_goals simp [stringifyMembers, JsValue.isUndefined, ih]

theorem stableStringify_array (xs : List JsValue) :
    stableStringify (.array xs) = 0x5B :: joined 0x2C 0x5D stableStringify xs := by
  rw [stableStringify, stringifyItems_map]
  rfl

theorem stableStringify_object (ms : List (JsString × JsValue)) :
    stableStringify (.object ms) = 0x7B :: joined 0x2C 0x7D memberText (sortedMembers ms) := by
  rw [stableStringify]
  rfl

/-! ### Members -/

section members

variable {xs ys : List (JsString × JsValue)} {k : JsString} {v : JsValue}

theorem mem_kept : (k, v) ∈ kept xs ↔ (k, v) ∈ xs ∧ v.isUndefined = false := by
  unfold kept
  rw [List.mem_filter, Bool.not_eq_true']

theorem member_some (hkeys : (xs.map Prod.fst).Nodup) :
    member k xs = some v ↔ (k, v) ∈ kept xs := by
  unfold member
  rw [mem_kept, Option.filter_eq_some_iff, Bool.not_eq_true']
  refine and_congr_left fun _ => ?_
  constructor
  · intro h
    obtain ⟨m, hm, rfl⟩ := Option.map_eq_some_iff.mp h
    obtain rfl := Rows.key_of_lookup hm
    exact Rows.mem_of_lookup hm
  · intro h
    have hl := Rows.lookup_of_mem hkeys h
    rw [show Rows.lookup Prod.fst k xs = some (k, v) from hl]
    rfl

theorem mem_sortedMembers {m : JsString × JsString} :
    m ∈ sortedMembers xs ↔ ∃ v, (m.1, v) ∈ kept xs ∧ m.2 = stableStringify v := by
  unfold sortedMembers
  rw [(List.perm_insertionSort keyLe _).mem_iff, stringifyMembers_map, List.mem_map]
  constructor
  · rintro ⟨⟨k, v⟩, hm, rfl⟩
    exact ⟨v, hm, rfl⟩
  · rintro ⟨v, hm, hv⟩
    exact ⟨(m.1, v), hm, by rw [← hv]⟩

theorem nodup_stringifyMembers (hkeys : (xs.map Prod.fst).Nodup) :
    ((stringifyMembers xs).map Prod.fst).Nodup := by
  rw [stringifyMembers_map, List.map_map]
  exact hkeys.sublist (List.Sublist.map Prod.fst List.filter_sublist)

end members

/-! ### Same text, same body -/

/-- What may follow a value: a comma or the end of its list or object. -/
def afterValue (u : UInt16) : Prop := u = 0x2C ∨ u = 0x5D ∨ u = 0x7D

theorem comma_after : afterValue 0x2C := Or.inl rfl

theorem bracket_after : afterValue 0x5D := Or.inr (Or.inl rfl)

theorem brace_after : afterValue 0x7D := Or.inr (Or.inr rfl)

inductive Kind
  | nullish | boolean | number | text | array | object
deriving DecidableEq, Repr

def JsValue.kind : JsValue → Kind
  | .null | .undefined => .nullish
  | .boolean _ => .boolean
  | .number _ => .number
  | .string _ | .date _ => .text
  | .array _ => .array
  | .object _ => .object

/-- The kind that a first character tells. -/
def kindOf (u : UInt16) : Kind :=
  if u = 0x6E then .nullish
  else if u = 0x74 ∨ u = 0x66 then .boolean
  else if u = 0x22 then .text
  else if u = 0x5B then .array
  else if u = 0x7B then .object
  else .number

theorem kindOf_number {u : UInt16} (h : isDigitUnit u ∨ u = 0x2D) : kindOf u = .number := by
  rcases h with ⟨hlow, hhigh⟩ | rfl
  · unfold kindOf
    have hle : u.toNat ≤ 0x39 := hhigh
    have hge : 0x30 ≤ u.toNat := hlow
    have hne : ∀ c : UInt16, c.toNat < 0x30 ∨ 0x39 < c.toNat → u ≠ c := by
      rintro c hc rfl
      omega
    simp [hne 0x6E (by decide), hne 0x74 (by decide), hne 0x66 (by decide), hne 0x22 (by decide),
      hne 0x5B (by decide), hne 0x7B (by decide)]
  · rfl

/-- A value is written with a first character of its kind, which closes no list or object. -/
theorem stableStringify_head (v : JsValue) : ∃ u rest, stableStringify v = u :: rest ∧
    kindOf u = v.kind ∧ u ≠ 0x5D ∧ u ≠ 0x7D := by
  have hnot : ∀ u, (isDigitUnit u ∨ u = 0x2D) → u ≠ 0x5D ∧ u ≠ 0x7D := by
    rintro u h
    constructor
    · rintro rfl
      exact absurd h (by unfold isDigitUnit; decide)
    · rintro rfl
      exact absurd h (by unfold isDigitUnit; decide)
  cases v with
  | null => exact ⟨0x6E, _, by rw [stableStringify]; rfl, rfl, by decide, by decide⟩
  | undefined => exact ⟨0x6E, _, by rw [stableStringify]; rfl, rfl, by decide, by decide⟩
  | boolean b =>
      cases b with
      | true => exact ⟨0x74, _, by rw [stableStringify]; rfl, rfl, by decide, by decide⟩
      | false => exact ⟨0x66, _, by rw [stableStringify]; rfl, rfl, by decide, by decide⟩
  | number n =>
      obtain ⟨u, rest, hu, hfirst⟩ := n.text_head
      exact ⟨u, rest, by rw [stableStringify, hu], kindOf_number hfirst, hnot u hfirst⟩
  | string s => exact ⟨0x22, _, by rw [stableStringify]; rfl, rfl, by decide, by decide⟩
  | date iso => exact ⟨0x22, _, by rw [stableStringify]; rfl, rfl, by decide, by decide⟩
  | array xs => exact ⟨0x5B, _, stableStringify_array xs, rfl, by decide, by decide⟩
  | object ms => exact ⟨0x7B, _, stableStringify_object ms, rfl, by decide, by decide⟩

/-- A value of a kind, and how it is written. -/
theorem JsValue.of_kind (v : JsValue) : match v.kind with
    | .nullish => v.isNullish ∧ stableStringify v = js "null"
    | .boolean => ∃ b, v = .boolean b
    | .number => ∃ n, v = .number n
    | .text => ∃ s, v.asText = some s ∧ stableStringify v = quoteJson s
    | .array => ∃ xs, v = .array xs
    | .object => ∃ ms, v = .object ms := by
  cases v with
  | null => exact ⟨trivial, by rw [stableStringify]⟩
  | undefined => exact ⟨trivial, by rw [stableStringify]⟩
  | boolean b => exact ⟨b, rfl⟩
  | number n => exact ⟨n, rfl⟩
  | string s => exact ⟨s, rfl, by rw [stableStringify]⟩
  | date iso => exact ⟨iso, rfl, by rw [stableStringify]⟩
  | array xs => exact ⟨xs, rfl⟩
  | object ms => exact ⟨ms, rfl⟩

/-- Values that are written alike are of one kind. -/
theorem kind_of_text {a b : JsValue} {r r' : JsString}
    (h : stableStringify a ++ r = stableStringify b ++ r') : a.kind = b.kind := by
  obtain ⟨u, rest, hu, hkind, -⟩ := stableStringify_head a
  obtain ⟨w, rest', hw, hkind', -⟩ := stableStringify_head b
  rw [hu, hw] at h
  rw [← hkind, ← hkind', (List.cons.inj h).1]

theorem cut_boolean (a b : Bool) : Cut afterValue (stableStringify (.boolean a))
    (stableStringify (.boolean b)) (a = b) := by
  intro r r' _ _ h
  rw [stableStringify, stableStringify] at h
  by_cases hab : a = b
  · subst hab
    exact ⟨rfl, List.append_cancel_left h⟩
  · have hfirst : (js (if a then "true" else "false")).head? =
        (js (if b then "true" else "false")).head? := by
      have hhead := congrArg List.head? h
      cases a
      all_goals
        cases b
        all_goals exact hhead
    cases a
    · cases b
      · exact absurd rfl hab
      · exact absurd hfirst (by decide)
    · cases b
      · exact absurd hfirst (by decide)
      · exact absurd rfl hab

theorem afterValue_not_number {u : UInt16} (h : afterValue u) : ¬ isNumberUnit u := by
  rcases h with rfl | rfl | rfl
  all_goals
    unfold isNumberUnit isDigitUnit
    decide

theorem cut_number (m n : JsFinite) : Cut afterValue (stableStringify (.number m))
    (stableStringify (.number n)) (m = n) := by
  intro r r' hr hr' h
  rw [stableStringify, stableStringify] at h
  obtain ⟨htext, hrest⟩ := split_run _ _ m.text_units n.text_units r r'
    (fun u hu => afterValue_not_number (hr u hu)) (fun u hu => afterValue_not_number (hr' u hu)) h
  exact ⟨JsFinite.text_injective htext, hrest⟩

/-- What the entries of two objects at one place have in common. -/
def EntriesSame (xs ys : List (JsString × JsValue)) (p q : JsString × JsString) : Prop :=
  p.1 = q.1 ∧ ∃ v w, (p.1, v) ∈ kept xs ∧ (q.1, w) ∈ kept ys ∧ SameBody v w

section objects

variable {xs ys : List (JsString × JsValue)}

theorem cut_member {p q : JsString × JsString}
    (hsame : ∀ v w, (p.1, v) ∈ kept xs → (q.1, w) ∈ kept ys →
      Cut afterValue (stableStringify v) (stableStringify w) (SameBody v w))
    (hp : p ∈ sortedMembers xs) (hq : q ∈ sortedMembers ys) :
    Cut afterValue (memberText p) (memberText q) (EntriesSame xs ys p q) := by
  obtain ⟨v, hv, hpv⟩ := mem_sortedMembers.mp hp
  obtain ⟨w, hw, hqw⟩ := mem_sortedMembers.mp hq
  intro r r' hr hr' h
  unfold memberText at h
  rw [hpv, hqw, List.append_assoc, List.append_assoc] at h
  have hkeys : Cut (fun _ => True) (quoteJson p.1) (quoteJson q.1) (p.1 = q.1) :=
    cut_quoteJson _ _
  obtain ⟨hkey, hrest⟩ := hkeys _ _ (fun _ _ => trivial) (fun _ _ => trivial) h
  obtain ⟨hvalue, hr⟩ := hsame v w hv hw r r' hr hr' (List.cons.inj hrest).2
  exact ⟨⟨hkey, v, w, hv, hw, hvalue⟩, hr⟩

/-- Each member has its other in an object whose entries are the same. -/
theorem member_other (hx : (xs.map Prod.fst).Nodup) (hy : (ys.map Prod.fst).Nodup)
    (h : List.Forall₂ (EntriesSame xs ys) (sortedMembers xs) (sortedMembers ys))
    {k : JsString} {v : JsValue} (hv : member k xs = some v) :
    ∃ w, member k ys = some w ∧ SameBody v w := by
  have hentry : (k, stableStringify v) ∈ sortedMembers xs :=
    mem_sortedMembers.mpr ⟨v, (member_some hx).mp hv, rfl⟩
  obtain ⟨q, -, hkey, v', w, hv', hw, hsame⟩ := exists_of_forall₂ h _ hentry
  obtain rfl := Option.some.inj (hv.symm.trans ((member_some hx).mpr hv'))
  refine ⟨w, ?_, hsame⟩
  rw [show k = q.1 from hkey]
  exact (member_some hy).mpr hw

/-- **Entries that are the same are one object's.** -/
theorem sameBody_object (hx : (xs.map Prod.fst).Nodup) (hy : (ys.map Prod.fst).Nodup)
    (h : List.Forall₂ (EntriesSame xs ys) (sortedMembers xs) (sortedMembers ys)) :
    SameBody (.object xs) (.object ys) := by
  refine SameBody.object (fun k => ?_) fun k v w hv hw => ?_
  · have hback : ∀ w, member k ys = some w → ∃ v, member k xs = some v := by
      intro w hw
      have hentry : (k, stableStringify w) ∈ sortedMembers ys :=
        mem_sortedMembers.mpr ⟨w, (member_some hy).mp hw, rfl⟩
      obtain ⟨p, -, hkey, v, -, hv, -, -⟩ := exists_of_forall₂ h.flip _ hentry
      refine ⟨v, ?_⟩
      rw [show k = p.1 from hkey.symm]
      exact (member_some hx).mpr hv
    constructor
    · intro hnone
      by_contra hsome
      obtain ⟨w, hw⟩ := Option.ne_none_iff_exists'.mp hsome
      obtain ⟨v, hv⟩ := hback w hw
      rw [hnone] at hv
      cases hv
    · intro hnone
      by_contra hsome
      obtain ⟨v, hv⟩ := Option.ne_none_iff_exists'.mp hsome
      obtain ⟨w, hw, -⟩ := member_other hx hy h hv
      rw [hnone] at hw
      cases hw
  · obtain ⟨w', hw', hsame⟩ := member_other hx hy h hv
    obtain rfl := Option.some.inj (hw.symm.trans hw')
    exact hsame

end objects

theorem sameBody_array {xs ys : List JsValue} (h : List.Forall₂ SameBody xs ys) :
    SameBody (.array xs) (.array ys) := by
  refine SameBody.array h.length_eq fun i v w hv hw => ?_
  obtain ⟨hi, rfl⟩ := List.getElem?_eq_some_iff.mp hv
  obtain ⟨hi', rfl⟩ := List.getElem?_eq_some_iff.mp hw
  exact h.get hi hi'

theorem wellFormed_items {xs : List JsValue} (h : (JsValue.array xs).WellFormed) :
    ∀ v ∈ xs, v.WellFormed := by
  cases h with
  | array h => exact h

theorem wellFormed_members {ms : List (JsString × JsValue)} (h : (JsValue.object ms).WellFormed) :
    (ms.map Prod.fst).Nodup ∧ ∀ m ∈ ms, m.2.WellFormed := by
  cases h with
  | object hkeys h => exact ⟨hkeys, h⟩

/-- **The texts of two bodies end at the same place only if the bodies say the same.** -/
theorem cut_stableStringify (a : JsValue) : ∀ b, a.WellFormed → b.WellFormed →
    Cut afterValue (stableStringify a) (stableStringify b) (SameBody a b) := by
  -- by the kind of `a`, which is the kind of `b`
  have hnullish : ∀ a b : JsValue, a.kind = .nullish →
      Cut afterValue (stableStringify a) (stableStringify b) (SameBody a b) := by
    intro a b hkind r r' _ _ h
    have ha := a.of_kind
    have hb := b.of_kind
    rw [hkind] at ha
    rw [← kind_of_text h, hkind] at hb
    rw [ha.2, hb.2] at h
    exact ⟨SameBody.null ha.1 hb.1, List.append_cancel_left h⟩
  have htext : ∀ a b : JsValue, a.kind = .text →
      Cut afterValue (stableStringify a) (stableStringify b) (SameBody a b) := by
    intro a b hkind r r' hr hr' h
    have ha := a.of_kind
    have hb := b.of_kind
    rw [hkind] at ha
    rw [← kind_of_text h, hkind] at hb
    obtain ⟨s, hs, has⟩ := ha
    obtain ⟨t, ht, hbt⟩ := hb
    rw [has, hbt] at h
    obtain ⟨rfl, hrest⟩ := cut_quoteJson s t r r' hr hr' h
    exact ⟨SameBody.text hs ht, hrest⟩
  induction a using JsValue.induction with
  | null => exact fun b _ _ => hnullish _ b rfl
  | undefined => exact fun b _ _ => hnullish _ b rfl
  | string s => exact fun b _ _ => htext _ b rfl
  | date iso => exact fun b _ _ => htext _ b rfl
  | boolean c =>
      intro b _ _ r r' hr hr' h
      have hb := b.of_kind
      rw [← kind_of_text h] at hb
      obtain ⟨d, rfl⟩ := hb
      obtain ⟨rfl, hrest⟩ := cut_boolean c d r r' hr hr' h
      exact ⟨SameBody.boolean c, hrest⟩
  | number n =>
      intro b _ _ r r' hr hr' h
      have hb := b.of_kind
      rw [← kind_of_text h] at hb
      obtain ⟨m, rfl⟩ := hb
      obtain ⟨rfl, hrest⟩ := cut_number n m r r' hr hr' h
      exact ⟨SameBody.number n, hrest⟩
  | array xs ih =>
      intro b ha hb r r' hr hr' h
      have hkind := b.of_kind
      rw [← kind_of_text h] at hkind
      obtain ⟨ys, rfl⟩ := hkind
      have hnot : ∀ vs : List JsValue, ∀ v ∈ vs,
          ∃ c rest, stableStringify v = c :: rest ∧ c ≠ 0x5D := by
        intro vs v _
        obtain ⟨u, rest, hu, -, hclose, -⟩ := stableStringify_head v
        exact ⟨u, rest, hu, hclose⟩
      have hall : Cut afterValue (joined 0x2C 0x5D stableStringify xs)
          (joined 0x2C 0x5D stableStringify ys) (List.Forall₂ SameBody xs ys) :=
        cut_joined (by decide) comma_after bracket_after xs ys
          (fun v hv w hw => ih v hv w (wellFormed_items ha v hv) (wellFormed_items hb w hw))
          (hnot xs) (hnot ys)
      rw [stableStringify_array, stableStringify_array] at h
      obtain ⟨hsame, hrest⟩ := hall r r' hr hr' (List.cons.inj h).2
      exact ⟨sameBody_array hsame, hrest⟩
  | object xs ih =>
      intro b ha hb r r' hr hr' h
      have hkind := b.of_kind
      rw [← kind_of_text h] at hkind
      obtain ⟨ys, rfl⟩ := hkind
      obtain ⟨hx, hxs⟩ := wellFormed_members ha
      obtain ⟨hy, hys⟩ := wellFormed_members hb
      have hnot : ∀ ms : List (JsString × JsString), ∀ m ∈ ms,
          ∃ c rest, memberText m = c :: rest ∧ c ≠ 0x7D :=
        fun ms m _ => ⟨0x22, _, rfl, by decide⟩
      have hall : Cut afterValue (joined 0x2C 0x7D memberText (sortedMembers xs))
          (joined 0x2C 0x7D memberText (sortedMembers ys))
          (List.Forall₂ (EntriesSame xs ys) (sortedMembers xs) (sortedMembers ys)) := by
        refine cut_joined (by decide) comma_after brace_after _ _
          (fun p hp q hq => cut_member (fun v w hv hw => ?_) hp hq) (hnot _) (hnot _)
        have hv' := (mem_kept.mp hv).1
        have hw' := (mem_kept.mp hw).1
        exact ih _ hv' w (hxs _ hv') (hys _ hw')
      rw [stableStringify_object, stableStringify_object] at h
      obtain ⟨hsame, hrest⟩ := hall r r' hr hr' (List.cons.inj h).2
      exact ⟨sameBody_object hx hy hsame, hrest⟩

/-! ### Same body, same text -/

instance : Std.Total keyLe := ⟨fun a b => List.le_total a.1 b.1⟩

instance : IsTrans (JsString × JsString) keyLe := ⟨fun _ _ _ hab hbc => List.le_trans hab hbc⟩

/-- Members with the same entries are written in the same order. -/
theorem sortedMembers_eq {xs ys : List (JsString × JsValue)} (hx : (xs.map Prod.fst).Nodup)
    (hy : (ys.map Prod.fst).Nodup) (h : ∀ p, p ∈ sortedMembers xs ↔ p ∈ sortedMembers ys) :
    sortedMembers xs = sortedMembers ys := by
  have hxs := List.perm_insertionSort keyLe (stringifyMembers xs)
  have hys := List.perm_insertionSort keyLe (stringifyMembers ys)
  have hperm : (sortedMembers xs).Perm (sortedMembers ys) := by
    refine (List.perm_ext_iff_of_nodup ?_ ?_).mpr h
    · exact (hxs.nodup_iff).mpr (nodup_stringifyMembers hx).of_map
    · exact (hys.nodup_iff).mpr (nodup_stringifyMembers hy).of_map
  refine List.Perm.eq_of_pairwise ?_ (List.pairwise_insertionSort keyLe _)
    (List.pairwise_insertionSort keyLe _) hperm
  intro p q hp hq hpq hqp
  have hkey : p.1 = q.1 := List.le_antisymm hpq hqp
  have hp' : p ∈ stringifyMembers xs := hxs.mem_iff.mp hp
  have hq' : q ∈ stringifyMembers xs := hxs.mem_iff.mp ((h q).mpr hq)
  exact List.inj_on_of_nodup_map (nodup_stringifyMembers hx) hp' hq' hkey

/-- **Bodies that say the same are written the same.** -/
theorem stableStringify_same {a b : JsValue} (h : SameBody a b) (ha : a.WellFormed)
    (hb : b.WellFormed) : stableStringify a = stableStringify b := by
  induction h with
  | @null a b hna hnb =>
      have hnull : ∀ v : JsValue, v.isNullish → stableStringify v = js "null" := by
        intro v hv
        cases v with
        | null => rw [stableStringify]
        | undefined => rw [stableStringify]
        | _ => exact hv.elim
      rw [hnull a hna, hnull b hnb]
  | boolean b => rfl
  | number n => rfl
  | @text a b s hta htb =>
      have htext : ∀ v : JsValue, v.asText = some s → stableStringify v = quoteJson s := by
        intro v hv
        cases v with
        | string t =>
            obtain rfl := Option.some.inj hv
            rw [stableStringify]
        | date iso =>
            obtain rfl := Option.some.inj hv
            rw [stableStringify]
        | _ => cases hv
      rw [htext a hta, htext b htb]
  | @array xs ys hlen _ ih =>
      rw [stableStringify_array, stableStringify_array]
      have hmap : xs.map stableStringify = ys.map stableStringify := by
        refine List.ext_getElem (by simpa using hlen) fun i hi hi' => ?_
        rw [List.length_map] at hi hi'
        rw [List.getElem_map, List.getElem_map]
        exact ih i _ _ (List.getElem?_eq_getElem hi) (List.getElem?_eq_getElem hi')
          (wellFormed_items ha _ (List.getElem_mem hi)) (wellFormed_items hb _ (List.getElem_mem hi'))
      unfold joined
      rw [hmap]
  | @object xs ys hkeys _ ih =>
      obtain ⟨hx, hxs⟩ := wellFormed_members ha
      obtain ⟨hy, hys⟩ := wellFormed_members hb
      rw [stableStringify_object, stableStringify_object, sortedMembers_eq hx hy fun p => ?_]
      rw [mem_sortedMembers, mem_sortedMembers]
      constructor
      · rintro ⟨v, hv, hp⟩
        have hvm := (member_some hx).mpr hv
        have hw : member p.1 ys ≠ none := by
          rw [ne_eq, ← hkeys, hvm]
          simp
        obtain ⟨w, hw⟩ := Option.ne_none_iff_exists'.mp hw
        have hwk := (member_some hy).mp hw
        refine ⟨w, hwk, hp.trans ?_⟩
        exact ih p.1 v w hvm hw (hxs _ (mem_kept.mp hv).1) (hys _ (mem_kept.mp hwk).1)
      · rintro ⟨w, hw, hp⟩
        have hwm := (member_some hy).mpr hw
        have hv : member p.1 xs ≠ none := by
          rw [ne_eq, hkeys, hwm]
          simp
        obtain ⟨v, hv⟩ := Option.ne_none_iff_exists'.mp hv
        have hvk := (member_some hx).mp hv
        refine ⟨v, hvk, hp.trans ?_⟩
        exact (ih p.1 v w hv hwm (hxs _ (mem_kept.mp hvk).1) (hys _ (mem_kept.mp hw).1)).symm

/-- Lines without line feeds are told apart. -/
theorem requestText_inj {scope caller scope' caller' : JsString} {a b : JsValue}
    (hs : 0x0A ∉ scope) (hc : 0x0A ∉ caller) (hs' : 0x0A ∉ scope') (hc' : 0x0A ∉ caller') :
    requestText scope caller a = requestText scope' caller' b ↔
      scope = scope' ∧ caller = caller' ∧ stableStringify a = stableStringify b := by
  have hline : ∀ {s t r r' : JsString}, 0x0A ∉ s → 0x0A ∉ t → s ++ 0x0A :: r = t ++ 0x0A :: r' →
      s = t ∧ r = r' := by
    intro s t r r' hns hnt h
    have hfeed : ∀ rest : JsString, Stopped (fun u => ¬ u ≠ 0x0A) (0x0A :: rest) :=
      fun rest => Stopped.cons (by simp)
    obtain ⟨hst, hrest⟩ := split_run s t (fun u hu => ne_of_mem_of_not_mem hu hns)
      (fun u hu => ne_of_mem_of_not_mem hu hnt) _ _ (hfeed r) (hfeed r') h
    exact ⟨hst, (List.cons.inj hrest).2⟩
  constructor
  · intro h
    unfold requestText at h
    rw [List.append_assoc, List.append_assoc] at h
    obtain ⟨hscope, hrest⟩ := hline hs hs' h
    obtain ⟨hcaller, hbody⟩ := hline hc hc' hrest
    exact ⟨hscope, hcaller, hbody⟩
  · rintro ⟨rfl, rfl, hbody⟩
    rw [requestText, requestText, hbody]

/-- **The text of a body is a canonical form, and the text that is hashed tells scope, caller
and body.** -/
theorem stableStringify_canonical (a b : JsonBody) :
    (stableStringify a.value = stableStringify b.value ↔ SameBody a.value b.value) ∧
    ∀ scope caller scope' caller' : JsString, 0x0A ∉ scope → 0x0A ∉ caller → 0x0A ∉ scope' →
      0x0A ∉ caller' → (requestText scope caller a.value = requestText scope' caller' b.value ↔
        scope = scope' ∧ caller = caller' ∧ SameBody a.value b.value) := by
  have hbody : stableStringify a.value = stableStringify b.value ↔ SameBody a.value b.value := by
    constructor
    · exact (cut_stableStringify a.value b.value a.wellFormed b.wellFormed).self
    · exact fun h => stableStringify_same h a.wellFormed b.wellFormed
  refine ⟨hbody, fun scope caller scope' caller' hs hc hs' hc' => ?_⟩
  rw [requestText_inj hs hc hs' hc', hbody]

/-- One line of a cart, with its keys in a given order. -/
def lineBody (members : List (JsString × JsValue)) (hkeys : (members.map Prod.fst).Nodup)
    (h : ∀ m ∈ members, m.2.WellFormed) : JsonBody :=
  ⟨.object members, .object hkeys h⟩

theorem stableStringify_canonical_line :
    let id : JsString × JsValue := (js "id", .string (js "7"))
    let gift : JsString × JsValue := (js "gift", .undefined)
    let qty : JsString × JsValue := (js "qty", .number .zero)
    SameBody (.object [id, gift, qty]) (.object [qty, id]) := by
  intro id gift qty
  have hwell : ∀ m ∈ [id, gift, qty], m.2.WellFormed := by
    intro m hm
    simp only [List.mem_cons, List.not_mem_nil, or_false] at hm
    rcases hm with rfl | rfl | rfl
    · exact .string _
    · exact .undefined
    · exact .number _
  have hwell' : ∀ m ∈ [qty, id], m.2.WellFormed :=
    fun m hm => hwell m (by simp only [List.mem_cons, List.not_mem_nil, or_false] at hm ⊢; tauto)
  have htext : requestText (js "order.place") (js "guest") (.object [id, gift, qty]) =
      requestText (js "order.place") (js "guest") (.object [qty, id]) := by
    decide +kernel
  exact (((stableStringify_canonical (lineBody [id, gift, qty] (by decide) hwell)
    (lineBody [qty, id] (by decide) hwell')).2 (js "order.place") (js "guest") (js "order.place")
    (js "guest") (by decide) (by decide) (by decide) (by decide)).mp htext).2.2

end BookHouse
