/-
Documents written by a template: markup that is fixed, and slots for texts.

`Safe` says of a template that each of its slots stands where the tokenizer reads text, and
that none of the markup leaves a character reference open.  Texts that are escaped one
character at a time then come out of the tokenizer as they went in, and the tokens of the
document are those of the template with the texts put in its holes (`tokens_of_safe`).  What
the holes are does not depend on the texts.
-/
import BookHouse.Lib.Html

namespace Html

/-! ### Runs -/

section run

variable {refs : CharRefs} {s s' s'' : State} {cs ds : List Char} {ts us : List Token}

@[simp] theorem run_nil : run refs s [] = (s, []) := rfl

theorem run_append (hcs : run refs s cs = (s', ts)) (hds : run refs s' ds = (s'', us)) :
    run refs s (cs ++ ds) = (s'', ts ++ us) := by
  induction cs generalizing s ts with
  | nil =>
      obtain ⟨rfl, rfl⟩ := Prod.mk.inj hcs
      exact hds
  | cons c cs ih =>
      simp only [run] at hcs
      obtain ⟨hs, rfl⟩ := Prod.mk.inj hcs
      have htail : run refs (step refs s c).1 cs = (s', (run refs (step refs s c).1 cs).2) := by
        rw [← hs]
      have hrest := ih htail
      rw [List.cons_append, run, hrest, List.append_assoc]

/-- A run that meets no character reference. -/
def plainRun : State → List Char → Option Out
  | s, [] => some (s, [])
  | s, c :: cs => do
      let out ← plainStep s c
      let rest ← plainRun out.1 cs
      return (rest.1, out.2 ++ rest.2)

theorem step_of_plainStep {c : Char} {out : Out} (h : plainStep s c = some out) :
    step refs s c = out := by
  unfold step
  split
  · cases h
  · rw [h, Option.getD_some]

/-- It does not depend on the tables. -/
theorem run_of_plainRun (h : plainRun s cs = some (s', ts)) : run refs s cs = (s', ts) := by
  induction cs generalizing s ts with
  | nil =>
      obtain ⟨rfl, rfl⟩ := Prod.mk.inj (Option.some.inj h)
      rfl
  | cons c cs ih =>
      simp only [plainRun, Option.bind_eq_bind, Option.bind_eq_some_iff, Option.pure_def,
        Option.some.injEq] at h
      obtain ⟨out, hout, rest, hrest, heq⟩ := h
      obtain ⟨rfl, rfl⟩ := Prod.mk.inj heq
      rw [run, step_of_plainStep hout, ih hrest]

end run

/-! ### Markup that is read whole -/

section leaves

variable {s s' s'' : State} {cs ds : List Char} {ts us : List Token}

theorem plainRun_append (hcs : plainRun s cs = some (s', ts))
    (hds : plainRun s' ds = some (s'', us)) :
    plainRun s (cs ++ ds) = some (s'', ts ++ us) := by
  induction cs generalizing s ts with
  | nil =>
      obtain ⟨rfl, rfl⟩ := Prod.mk.inj (Option.some.inj hcs)
      exact hds
  | cons c cs ih =>
      simp only [plainRun, Option.bind_eq_bind, Option.bind_eq_some_iff, Option.pure_def,
        Option.some.injEq] at hcs
      obtain ⟨out, hout, rest, hrest, heq⟩ := hcs
      obtain ⟨rfl, rfl⟩ := Prod.mk.inj heq
      simp only [List.cons_append, plainRun, hout, Option.bind_eq_bind, Option.bind_some,
        ih hrest, Option.pure_def, List.append_assoc]

/-- From one state the markup leads to the other. -/
def LeadsTo (s : State) (cs : List Char) (s' : State) : Prop :=
  (plainRun s cs).map Prod.fst = some s' ∧ '\r' ∉ cs

theorem LeadsTo.run (h : LeadsTo s cs s') : ∃ ts, plainRun s cs = some (s', ts) := by
  obtain ⟨out, hout, rfl⟩ := Option.map_eq_some_iff.mp h.1
  exact ⟨out.2, hout⟩

theorem LeadsTo.nil (s : State) : LeadsTo s [] s := ⟨rfl, List.not_mem_nil⟩

theorem LeadsTo.append (hcs : LeadsTo s cs s') (hds : LeadsTo s' ds s'') :
    LeadsTo s (cs ++ ds) s'' := by
  obtain ⟨ts, hts⟩ := hcs.run
  obtain ⟨us, hus⟩ := hds.run
  refine ⟨by rw [plainRun_append hts hus, Option.map_some], fun h => ?_⟩
  rcases List.mem_append.mp h with h | h
  · exact hcs.2 h
  · exact hds.2 h

/-- A literal is checked on its characters. -/
theorem LeadsTo.lit {text : String} (htext : text = String.ofList cs)
    (hrun : (plainRun s cs).map Prod.fst = some s') (hreturn : cs.contains '\r' = false) :
    LeadsTo s text.toList s' := by
  rw [htext, String.toList_ofList]
  exact ⟨hrun, by simpa using hreturn⟩

/-- Text without a tag or a reference is read as text. -/
theorem LeadsTo.text {m : Mode} (h : ∀ c ∈ cs, c ≠ '<' ∧ c ≠ '&' ∧ c ≠ '\r') :
    LeadsTo (.text m) cs (.text m) := by
  induction cs with
  | nil => exact .nil _
  | cons c cs ih =>
      obtain ⟨hlt, hamp, hreturn⟩ := h c List.mem_cons_self
      have hstep : plainRun (.text m) [c] = some (.text m, [.char (m.shown c)]) := by
        simp [plainRun, plainStep, textStep, hlt, hamp]
      have hone : LeadsTo (.text m) [c] (.text m) :=
        ⟨by rw [hstep, Option.map_some], fun hc => hreturn (List.mem_singleton.mp hc).symm⟩
      exact hone.append (ih fun d hd => h d (List.mem_cons_of_mem _ hd))

end leaves

/-! ### Escaped texts -/

section escaped

variable {refs : CharRefs} {m : Mode} {escape : Char → List Char}

/-- What an escaped character must be to be read as itself. -/
structure Escapes (escape : Char → List Char) : Prop where
  read : ∀ (refs : CharRefs) (m : Mode) (c : Char), m.Decodes →
    run refs (.text m) (escape c) = (.text m, [.char (m.shown c)])
  return_ : escape '\r' = ['\r']
  newline : escape '\n' = ['\n']
  other : ∀ c, c ≠ '\r' → c ≠ '\n' → escape c ≠ [] ∧ '\r' ∉ escape c ∧ '\n' ∉ escape c

/-- A whole name is its own longest beginning. -/
theorem longest_whole {named : List Char → Option (List Char)} {name chars : List Char}
    (h : named name = some chars) : longest named name = some (chars, []) := by
  rw [longest, List.range_succ, List.reverse_append, List.reverse_singleton, List.singleton_append,
    List.findSome?_cons, List.take_length, h]
  simp

theorem run_escaped (h : Escapes escape) (hm : m.Decodes) (text : List Char) :
    run refs (.text m) (text.flatMap escape) =
      (.text m, text.map fun c => .char (m.shown c)) := by
  induction text with
  | nil => rfl
  | cons c text ih =>
      rw [List.flatMap_cons, List.map_cons]
      exact run_append (h.read refs m c hm) ih

end escaped

/-! ### Line breaks -/

section newlines

variable {cs ds : List Char} {escape : Char → List Char}

theorem newlinesFrom_head (afterReturn : Bool) (h : ds.head? ≠ some '\n') :
    newlinesFrom afterReturn ds = newlinesFrom false ds := by
  cases ds with
  | nil => rfl
  | cons c ds =>
      have hc : c ≠ '\n' := fun hc => h (by rw [hc]; rfl)
      simp [newlinesFrom, hc]

/-- The line breaks of a text end with it, if what follows does not begin with U+000A. -/
theorem newlinesFrom_append (hds : ds.head? ≠ some '\n') (afterReturn : Bool) :
    newlinesFrom afterReturn (cs ++ ds) = newlinesFrom afterReturn cs ++ newlines ds := by
  induction cs generalizing afterReturn with
  | nil => exact newlinesFrom_head _ hds
  | cons c cs ih =>
      rw [List.cons_append, newlinesFrom, newlinesFrom]
      split
      · exact ih false
      · split
        · rw [ih true]
          rfl
        · rw [ih false]
          rfl

/-- Text without either character is left alone. -/
theorem newlinesFrom_other (hne : cs ≠ []) (hreturn : '\r' ∉ cs) (hnewline : '\n' ∉ cs)
    (afterReturn : Bool) : newlinesFrom afterReturn (cs ++ ds) = cs ++ newlines ds := by
  induction cs generalizing afterReturn with
  | nil => exact absurd rfl hne
  | cons c cs ih =>
      have hc : c ≠ '\r' := fun hc => hreturn (hc ▸ List.mem_cons_self)
      have hc' : c ≠ '\n' := fun hc => hnewline (hc ▸ List.mem_cons_self)
      have hrest : newlinesFrom false (cs ++ ds) = cs ++ newlines ds := by
        by_cases hcs : cs = []
        · rw [hcs]
          rfl
        · exact ih hcs (fun h => hreturn (List.mem_cons_of_mem _ h))
            (fun h => hnewline (List.mem_cons_of_mem _ h)) false
      rw [List.cons_append, newlinesFrom, if_neg (by simp [hc']), if_neg hc, hrest]
      rfl

theorem newlines_plain (h : '\r' ∉ cs) : newlines (cs ++ ds) = cs ++ newlines ds := by
  induction cs with
  | nil => rfl
  | cons c cs ih =>
      have hc : c ≠ '\r' := fun hc => h (hc ▸ List.mem_cons_self)
      rw [List.cons_append, newlines, newlinesFrom, if_neg (by simp), if_neg hc, ← newlines,
        ih fun hcs => h (List.mem_cons_of_mem _ hcs)]
      rfl

theorem newlinesFrom_escaped (h : Escapes escape) (text : List Char) (afterReturn : Bool) :
    newlinesFrom afterReturn (text.flatMap escape) =
      (newlinesFrom afterReturn text).flatMap escape := by
  induction text generalizing afterReturn with
  | nil => rfl
  | cons c text ih =>
      rw [List.flatMap_cons]
      by_cases hnewline : c = '\n'
      · subst hnewline
        rw [h.newline]
        cases afterReturn
        · simp [newlinesFrom, ih, h.newline]
        · simp [newlinesFrom, ih]
      · by_cases hreturn : c = '\r'
        · subst hreturn
          rw [h.return_]
          simp [newlinesFrom, ih, h.newline]
        · obtain ⟨hne, hr, hn⟩ := h.other c hreturn hnewline
          rw [newlinesFrom_other hne hr hn, newlines, ih, newlinesFrom, if_neg (by simp [hnewline]),
            if_neg hreturn, List.flatMap_cons]

/-- Line breaks only become fewer, and nothing else is added. -/
theorem countP_newlinesFrom {p : Char → Bool} (hp : p '\n' = true → p '\r' = true)
    (afterReturn : Bool) : (newlinesFrom afterReturn cs).countP p ≤ cs.countP p := by
  induction cs generalizing afterReturn with
  | nil => exact Nat.le_refl _
  | cons c cs ih =>
      rw [newlinesFrom]
      split
      · have := ih false
        rw [List.countP_cons]
        omega
      · split
        · next hreturn =>
            subst hreturn
            have := ih true
            rw [List.countP_cons, List.countP_cons]
            by_cases hn : p '\n' = true
            · rw [if_pos hn, if_pos (hp hn)]
              omega
            · rw [if_neg hn]
              omega
        · rw [List.countP_cons, List.countP_cons]
          exact Nat.add_le_add_right (ih false) _

end newlines

/-! ### Templates -/

inductive Piece (σ : Type*)
  | markup (html : List Char)
  | slot (x : σ)

/-- The document, with a text in each of the slots. -/
def html {σ : Type*} (escape : Char → List Char) (value : σ → List Char) :
    List (Piece σ) → List Char
  | [] => []
  | .markup h :: ps => h ++ html escape value ps
  | .slot x :: ps => (value x).flatMap escape ++ html escape value ps

/-- Markup that may follow a text: a line break there could belong to the text's last one. -/
def Opens (h : List Char) : Prop := ∃ c rest, h = c :: rest ∧ c ≠ '\n'

theorem Opens.lit {text : String} {c : Char} {cs : List Char}
    (htext : text = String.ofList (c :: cs)) (hc : c ≠ '\n') : Opens text.toList := by
  rw [htext, String.toList_ofList]
  exact ⟨c, cs, rfl, hc⟩

/-- From one state of the tokenizer to another, each slot in text and before markup. -/
inductive Safe {σ : Type*} : State → List (Piece σ) → State → Prop
  | nil (s : State) : Safe s [] s
  | markup {s s' s'' : State} {h : List Char} {ps : List (Piece σ)} (hh : LeadsTo s h s')
      (hps : Safe s' ps s'') : Safe s (.markup h :: ps) s''
  | slot {m : Mode} {s s' : State} {x : σ} {h : List Char} {ps : List (Piece σ)} (hm : m.Decodes)
      (hopens : Opens h) (hh : LeadsTo (.text m) h s) (hps : Safe s ps s') :
      Safe (.text m) (.slot x :: .markup h :: ps) s'

section template

variable {σ : Type*} {refs : CharRefs} {s s' s'' : State} {h : List Char} {ps qs : List (Piece σ)}
  {escape : Char → List Char} {value : σ → List Char}

/-- The tokens of a template: a hole says which slot it is and how its text is read. -/
def skeleton : State → List (Piece σ) → List (Token ⊕ σ × Mode)
  | _, [] => []
  | s, .markup h :: ps =>
      let out := (plainRun s h).getD (s, [])
      out.2.map .inl ++ skeleton out.1 ps
  | s, .slot x :: ps => .inr (x, match s with | .text m => m | _ => .data) :: skeleton s ps

/-- A text in a hole. -/
def fill (value : σ → List Char) : Token ⊕ σ × Mode → List Token
  | .inl t => [t]
  | .inr (x, m) => (newlines (value x)).map fun c => .char (m.shown c)

theorem html_append (ps qs : List (Piece σ)) :
    html escape value (ps ++ qs) = html escape value ps ++ html escape value qs := by
  induction ps with
  | nil => rfl
  | cons p ps ih => cases p <;> simp [html, ih]

theorem Safe.append (hps : Safe s ps s') (hqs : Safe s' qs s'') : Safe s (ps ++ qs) s'' := by
  induction hps with
  | nil => exact hqs
  | markup hh _ ih => exact .markup hh (ih hqs)
  | slot hm hopens hh _ ih => exact .slot hm hopens hh (ih hqs)

theorem fill_markup (ts : List Token) : (ts.map Sum.inl).flatMap (fill value) = ts := by
  rw [List.flatMap_map]
  exact List.flatMap_singleton' ts

theorem run_markup (hh : LeadsTo s h s') (ih : run refs s' (newlines (html escape value ps)) =
      (s'', (skeleton s' ps).flatMap (fill value))) :
    run refs s (newlines (html escape value (.markup h :: ps))) =
      (s'', (skeleton s (.markup h :: ps)).flatMap (fill value)) := by
  obtain ⟨ts, hts⟩ := hh.run
  rw [html, newlines_plain hh.2, run_append (run_of_plainRun hts) ih, skeleton, hts]
  simp only [Option.getD_some, List.flatMap_append, fill_markup]

theorem run_of_safe (hescape : Escapes escape) (hps : Safe s ps s') :
    run refs s (newlines (html escape value ps)) =
      (s', (skeleton s ps).flatMap (fill value)) := by
  induction hps with
  | nil => rfl
  | markup hh _ ih => exact run_markup hh ih
  | slot hm hopens hh _ ih =>
      have hrest := run_markup hh ih
      obtain ⟨c, rest, rfl, hc⟩ := hopens
      rw [html, newlines, newlinesFrom_append (by simpa [html] using hc),
        newlinesFrom_escaped hescape, run_append (run_escaped hescape hm _) hrest]
      rfl

/-- The tokens of a document are those of its template, with the texts in the holes. -/
theorem tokens_of_safe (hescape : Escapes escape) {m : Mode}
    (hps : Safe (.text .data) ps (.text m)) :
    tokens refs (html escape value ps) = (skeleton (.text .data) ps).flatMap (fill value) := by
  rw [tokens, run_of_safe hescape hps]
  exact List.append_nil _

/-- The tags of a document, and what else is no text. -/
def markup (ts : List Token) : List Token :=
  ts.filter fun t => match t with
    | .char _ => false
    | _ => true

theorem markup_chars (f : Char → Char) (cs : List Char) :
    markup (cs.map fun c => .char (f c)) = [] := by
  refine List.filter_eq_nil_iff.mpr fun t ht => ?_
  obtain ⟨c, -, rfl⟩ := List.mem_map.mp ht
  simp

/-- The tags do not depend on the texts. -/
theorem markup_fill (value value' : σ → List Char) (holes : List (Token ⊕ σ × Mode)) :
    markup (holes.flatMap (fill value)) = markup (holes.flatMap (fill value')) := by
  induction holes with
  | nil => rfl
  | cons hole holes ih =>
      rw [List.flatMap_cons, List.flatMap_cons, markup, markup, List.filter_append,
        List.filter_append, ← markup, ← markup, ih]
      congr 1
      cases hole with
      | inl t => rfl
      | inr hole => exact (markup_chars _ _).trans (markup_chars _ _).symm

/-! ### The holes -/

/-- The slots of a template, and how the text in each is read. -/
def holes (s : State) (ps : List (Piece σ)) : List (σ × Mode) :=
  (skeleton s ps).filterMap Sum.getRight?

def slots (ps : List (Piece σ)) : List σ :=
  ps.filterMap fun p => match p with
    | .markup _ => none
    | .slot x => some x

theorem slots_append (ps qs : List (Piece σ)) : slots (ps ++ qs) = slots ps ++ slots qs :=
  List.filterMap_append

theorem holes_markup (hh : LeadsTo s h s') : holes s (.markup h :: ps) = holes s' ps := by
  obtain ⟨ts, hts⟩ := hh.run
  have hnone : (ts.map Sum.inl).filterMap (Sum.getRight? (α := Token) (β := σ × Mode)) = [] := by
    rw [List.filterMap_map]
    exact List.filterMap_eq_nil_iff.mpr fun _ _ => rfl
  rw [holes, skeleton, hts, List.filterMap_append, Option.getD_some, hnone]
  rfl

theorem holes_slot (m : Mode) (x : σ) (ps : List (Piece σ)) :
    holes (.text m) (.slot x :: ps) = (x, m) :: holes (.text m) ps := rfl

theorem holes_append (hps : Safe s ps s') : holes s (ps ++ qs) = holes s ps ++ holes s' qs := by
  induction hps with
  | nil => rfl
  | markup hh _ ih => rw [List.cons_append, holes_markup hh, holes_markup hh, ih]
  | slot _ _ hh _ ih =>
      rw [List.cons_append, List.cons_append, holes_slot, holes_slot, holes_markup hh,
        holes_markup hh, ih]
      rfl

/-- A template in which all texts stand in the body of the page. -/
structure DataSafe (ps : List (Piece σ)) : Prop where
  safe : Safe (.text .data) ps (.text .data)
  modes : holes (.text .data) ps = (slots ps).map fun x => (x, .data)

namespace DataSafe

theorem nil : DataSafe ([] : List (Piece σ)) := ⟨.nil _, rfl⟩

theorem markup (hh : LeadsTo (.text .data) h (.text .data)) (hps : DataSafe ps) :
    DataSafe (.markup h :: ps) :=
  ⟨.markup hh hps.safe, by rw [holes_markup hh, hps.modes]; rfl⟩

theorem slot {x : σ} (hopens : Opens h) (hh : LeadsTo (.text .data) h (.text .data))
    (hps : DataSafe ps) : DataSafe (.slot x :: .markup h :: ps) :=
  ⟨.slot trivial hopens hh hps.safe, by rw [holes_slot, holes_markup hh, hps.modes]; rfl⟩

theorem append (hps : DataSafe ps) (hqs : DataSafe qs) : DataSafe (ps ++ qs) := by
  refine ⟨hps.safe.append hqs.safe, ?_⟩
  rw [holes_append hps.safe, hps.modes, hqs.modes, slots_append, List.map_append]

end DataSafe

end template

end Html
