/-
What the search finds.

A token is matched by ILIKE as a pattern, escaped and between two signs for any text, so it
is matched literally wherever it occurs.  A row passes the condition when each token occurs in
one of the columns, ignoring case, or by one of the two alternatives; the tokens are the words
of the query, and when there are more than six of them the longest six.
-/
import BookHouse.Catalog.Search
import BookHouse.Lib.Sorting
import BookHouse.Proofs.ProductList

namespace BookHouse

open Sql

namespace Search

variable {host : TextHost} {q : Option String}

/-! ### Patterns -/

theorem toList_escapeLike (s : String) : (escapeLike s).toList = likeSigns.escaped s.toList := by
  rw [escapeLike, String.toList_ofList, Like.Signs.escaped]
  congr 1
  funext c
  have hsign : likeSigns.isSign c = true ↔ c ∈ ['\\', '%', '_'] := by
    rw [Like.Signs.isSign_iff]
    simp [likeSigns]
  by_cases hc : c ∈ ['\\', '%', '_']
  · rw [if_pos hc, if_pos (hsign.mpr hc)]
    rfl
  · rw [if_neg hc, if_neg (mt hsign.mp hc)]

theorem fold_containsPattern (t : String) : (containsPattern t).toList.map host.fold =
    '%' :: (likeSigns.escaped (t.toList.map host.fold) ++ ['%']) := by
  have hmany : host.fold '%' = '%' := host.fold_sign '%' (by decide)
  have hsign : ("%" : String).toList = ['%'] := rfl
  rw [containsPattern, String.toList_append, String.toList_append, toList_escapeLike, hsign,
    List.map_append, List.map_append, Like.Signs.map_escaped host.fold_sign host.fold_other]
  simp [hmany]

/-- The token occurs in the text, in letters of whatever case. -/
def Occurs (host : TextHost) (token text : String) : Prop :=
  token.toList.map host.fold <:+: text.toList.map host.fold

/-- **A token is matched literally.** -/
theorem ilike_containsPattern (text : Option String) (t : String) :
    (ilike host text (containsPattern t)).Holds ↔ ∃ s, text = some s ∧ Occurs host t s := by
  cases text with
  | none => simp [ilike, Truth.Holds]
  | some s =>
      have hlike : (ilike host (some s) (containsPattern t)).Holds ↔ Occurs host t s := by
        rw [ilike, Option.bind_some, fold_containsPattern]
        exact Like.Signs.like_contains _ _
      rw [hlike]
      constructor
      · intro h
        exact ⟨s, rfl, h⟩
      · rintro ⟨s', hs, h⟩
        rwa [Option.some.inj hs]

/-- A host that knows one letter case only. -/
def plainHost : TextHost where
  nfc := id
  toLowerCase := id
  fold := id
  fold_sign _ _ := rfl
  fold_other _ := rfl
  wordSimilarity _ _ := 0

example : (ilike plainHost (some "100% cotton") (containsPattern "0% c")).Holds ∧
    ¬ (ilike plainHost (some "100 cotton") (containsPattern "0% c")).Holds := by decide

/-! ### The condition -/

/-- A column that is searched shows the token. -/
inductive Shows (host : TextHost) (isPublic : Bool) (p : CatalogueProduct) (cols : SearchColumns)
    (token : String) : Prop
  | title (h : Occurs host token p.title)
  | subtitle {s : String} (hs : cols.subtitle = some s) (h : Occurs host token s)
  | sku (hadmin : isPublic = false) (h : Occurs host token p.sku)

theorem holds_tokenCond {isPublic : Bool} {p : CatalogueProduct} {cols : SearchColumns}
    {t : String} : (tokenCond host isPublic p cols t).Holds ↔ Shows host isPublic p cols t := by
  unfold tokenCond
  cases isPublic with
  | true =>
      rw [if_pos rfl, Truth.holds_or, ilike_containsPattern, ilike_containsPattern]
      constructor
      · rintro (⟨s, hs, h⟩ | ⟨s, hs, h⟩)
        · exact .title (Option.some.inj hs ▸ h)
        · exact .subtitle hs h
      · intro h
        cases h with
        | title h => exact .inl ⟨_, rfl, h⟩
        | subtitle hs h => exact .inr ⟨_, hs, h⟩
        | sku hadmin h => cases hadmin
  | false =>
      rw [if_neg (by decide), Truth.holds_or, Truth.holds_or, ilike_containsPattern,
        ilike_containsPattern, ilike_containsPattern]
      constructor
      · rintro ((⟨s, hs, h⟩ | ⟨s, hs, h⟩) | ⟨s, hs, h⟩)
        · exact .title (Option.some.inj hs ▸ h)
        · exact .subtitle hs h
        · exact .sku rfl (Option.some.inj hs ▸ h)
      · intro h
        cases h with
        | title h => exact .inl (.inl ⟨_, rfl, h⟩)
        | subtitle hs h => exact .inl (.inr ⟨_, hs, h⟩)
        | sku _ h => exact .inr ⟨_, rfl, h⟩

/-- What a query finds: each of its tokens, or a title that resembles it, or a legacy id. -/
inductive Found (host : TextHost) (q : Option String) (isPublic : Bool) (p : CatalogueProduct)
    (cols : SearchColumns) : Prop
  | tokens (h : ∀ t ∈ searchTokens host q, Shows host isPublic p cols t)
  | similar (h : 0.45 ≤ host.wordSimilarity (normaliseQuery host q) p.title)
  | legacy {n : ℕ} (hadmin : isPublic = false)
      (hn : legacyNumber (normaliseQuery host q) = some n) (h : cols.legacyId = some n)

theorem holds_all_map {α : Type} {cond : α → Truth} {l : List α} :
    (Truth.all (l.map cond)).Holds ↔ ∀ a ∈ l, (cond a).Holds := by
  induction l with
  | nil => simp
  | cons a l ih => rw [List.map_cons, Truth.holds_all_cons, ih, List.forall_mem_cons]

theorem holds_searchCond {isPublic : Bool} {p : CatalogueProduct} {cols : SearchColumns} :
    ((searchCond host q isPublic p cols).getD (some true)).Holds ↔
      Found host q isPublic p cols := by
  unfold searchCond
  by_cases hnil : searchTokens host q = []
  · rw [if_pos hnil, Option.getD_none]
    simp only [Truth.holds_some, true_iff]
    exact .tokens (by rw [hnil]; intro t ht; cases ht)
  · rw [if_neg hnil]
    have hall : (Truth.all ((searchTokens host q).map (tokenCond host isPublic p cols))).Holds ↔
        ∀ t ∈ searchTokens host q, Shows host isPublic p cols t := by
      rw [holds_all_map]
      simp only [holds_tokenCond]
    cases isPublic with
    | true =>
        rw [if_pos rfl, Option.getD_some, Truth.holds_or, hall, Truth.holds_some,
          decide_eq_true_eq]
        constructor
        · rintro (h | h)
          · exact .tokens h
          · exact .similar h
        · intro h
          cases h with
          | tokens h => exact .inl h
          | similar h => exact .inr h
          | legacy hadmin _ _ => cases hadmin
    | false =>
        rw [if_neg (by decide)]
        cases hn : legacyNumber (normaliseQuery host q) with
        | none =>
            simp only [Option.getD_some, Truth.holds_or, hall, Truth.holds_some,
              decide_eq_true_eq]
            constructor
            · rintro (h | h)
              · exact .tokens h
              · exact .similar h
            · intro h
              cases h with
              | tokens h => exact .inl h
              | similar h => exact .inr h
              | legacy _ hsome _ =>
                  rw [hn] at hsome
                  cases hsome
        | some n =>
            simp only [Option.getD_some, Truth.holds_or, hall, Truth.holds_some,
              decide_eq_true_eq, ProductList.holds_eq]
            constructor
            · rintro ((h | h) | ⟨k, hk, hkn⟩)
              · exact .tokens h
              · exact .similar h
              · exact .legacy rfl hn (hk.trans hkn.symm)
            · intro h
              cases h with
              | tokens h => exact .inl (.inl h)
              | similar h => exact .inl (.inr h)
              | legacy _ hsome h =>
                  rw [hn] at hsome
                  exact .inr ⟨_, h, hsome⟩

/-- **A search leaves of the list the rows that it finds, and nothing else of them changes.** -/
theorem search_finds (host : TextHost) (q : Option String) (t : SearchTables)
    (f : ProductList.Filter) (now : Instant) (r : ProductList.Row) :
    r ∈ findRows host q t f now ↔
      r ∈ (t.products.flatMap (ProductList.rowsOf t.toListTables now)).filter
        (fun r => (ProductList.conditions f now r).Holds) ∧
      Found host q f.isPublic r.p (t.searched r.p.id) := by
  rw [findRows, List.mem_filter, List.mem_filter, decide_eq_true_eq, decide_eq_true_eq,
    Truth.holds_and, holds_searchCond, and_assoc]

/-! ### The tokens -/

/-- What is asked for instead of all the words: at most six of them, the longest. -/
structure Tokens (words tokens : List String) : Prop where
  nodup : tokens.Nodup
  few : tokens.length ≤ maxSearchTokens
  from_words : ∀ t ∈ tokens, t ∈ words
  longest_first : tokens.Pairwise fun a b => (js b).length ≤ (js a).length
  /-- only shorter words are left out, and only when there are too many -/
  left_out : ∀ w ∈ words, w ∉ tokens →
    tokens.length = maxSearchTokens ∧ ∀ t ∈ tokens, (js w).length ≤ (js t).length

end Search

end BookHouse
