/-
Editing a description loses nothing.

A line that is not blank is white space around a text that begins and ends without any, and
such a text either does not begin like a bullet or is a mark, white space and another such
text (`unbullet_some`, `unbullet_mark`).  That is what reading does with a line
(`readLine_cases`), and what is read is written in lines of the same two kinds, so reading it
again finds the same parts in the same order.
-/
import BookHouse.Lib.Delimited
import BookHouse.Lib.Trimming
import BookHouse.Text.Description

namespace BookHouse

open Trimming

namespace Desc

/-! ### Bullets -/

inductive Mark : Line → Prop
  | sign {c : Char} (h : c ∈ marks) : Mark [c]
  | number {digits : Line} {sep : Char} (hne : digits ≠ [])
      (hdigits : ∀ d ∈ digits, d.isDigit = true) (hsep : sep = '.' ∨ sep = ')') :
      Mark (digits ++ [sep])

/-- White space, a mark and white space, and whatever follows. -/
def LooksLikeBullet (line : Line) : Prop :=
  ∃ pre mark gap rest, Blanks isBlank pre ∧ Mark mark ∧ Blanks isBlank gap ∧ gap ≠ [] ∧
    line = pre ++ mark ++ gap ++ rest

variable {line rest pre mark gap x raw : Line}

theorem afterMark_some (h : afterMark line = some rest) :
    ∃ pre mark, Blanks isBlank pre ∧ Mark mark ∧ line = pre ++ mark ++ rest := by
  obtain ⟨pre, hpre, hline⟩ := exists_dropWhile (p := isBlank) line
  unfold afterMark at h
  cases hdrop : line.dropWhile isBlank with
  | nil => simp [hdrop] at h
  | cons c tail =>
      rw [hdrop] at hline
      simp only [hdrop] at h
      split at h
      · rename_i hc
        obtain rfl := Option.some.inj h
        exact ⟨pre, [c], hpre, .sign hc, by simpa using hline⟩
      split at h
      · rename_i hc
        obtain ⟨digits, hdigits, htail⟩ := exists_dropWhile (p := Char.isDigit) tail
        cases hsep : tail.dropWhile Char.isDigit with
        | nil => simp [hsep] at h
        | cons sep after =>
            simp only [hsep] at h
            split at h
            · rename_i hmark
              obtain rfl := Option.some.inj h
              rw [hsep] at htail
              refine ⟨pre, c :: digits ++ [sep], hpre, .number (by simp) ?_ hmark, ?_⟩
              · exact List.forall_mem_cons.mpr ⟨hc, hdigits⟩
              · rw [hline, htail]
                simp
            · cases h
      · cases h

theorem marks_facts : ∀ c ∈ marks, isBlank c = false ∧ c.isDigit = false := by
  have hall : (marks.all fun c => !isBlank c && !c.isDigit) = true := rfl
  simpa using hall

theorem digit_not_blank {d : Char} (h : d.isDigit = true) : isBlank d = false := by
  simp only [Char.isDigit, Bool.and_eq_true, decide_eq_true_eq, ge_iff_le,
    UInt32.le_iff_toNat_le] at h
  have hlow : 48 ≤ d.toNat := h.1
  have hhigh : d.toNat ≤ 57 := h.2
  have hnot : ¬isBlank d = true := by
    simp only [isBlank, List.contains_eq_mem, List.mem_cons, List.not_mem_nil, Bool.or_eq_true,
      Bool.and_eq_true, decide_eq_true_eq, or_false]
    omega
  simpa using hnot

theorem afterMark_mark (hpre : Blanks isBlank pre) (hmark : Mark mark) :
    afterMark (pre ++ mark ++ rest) = some rest := by
  unfold afterMark
  rw [List.append_assoc, List.dropWhile_append_of_pos hpre]
  cases hmark with
  | @sign c h =>
      have hc : isBlank c = false := (marks_facts c h).1
      rw [List.singleton_append, List.dropWhile_cons_of_neg (by simp [hc])]
      exact if_pos h
  | @number digits sep hne hdigits hsep =>
      obtain ⟨d, ds, rfl⟩ := List.exists_cons_of_ne_nil hne
      have hd : d.isDigit = true := hdigits d List.mem_cons_self
      have hds : ∀ c ∈ ds, c.isDigit = true := fun c hc => hdigits c (List.mem_cons_of_mem _ hc)
      have hnot : d ∉ marks := fun hc => by
        rw [(marks_facts d hc).2] at hd
        cases hd
      have hstop : sep.isDigit = false := by
        rcases hsep with rfl | rfl <;> rfl
      have htail : (ds ++ (sep :: rest)).dropWhile Char.isDigit = sep :: rest := by
        rw [List.dropWhile_append_of_pos hds, List.dropWhile_cons_of_neg (by simp [hstop])]
      rw [List.append_assoc, List.cons_append, List.singleton_append,
        List.dropWhile_cons_of_neg (by simp [digit_not_blank hd])]
      simp only [if_neg hnot, hd, if_true, htail, if_pos hsep]

/-- A line that begins like a bullet, and what is left of it. -/
theorem unbullet_mark (hpre : Blanks isBlank pre) (hmark : Mark mark) (hgap : Blanks isBlank gap)
    (hne : gap ≠ []) : unbullet (pre ++ mark ++ gap ++ rest) = some (rest.dropWhile isBlank) := by
  obtain ⟨c, more, rfl⟩ := List.exists_cons_of_ne_nil hne
  have hmore : Blanks isBlank more := fun a ha => hgap a (List.mem_cons_of_mem _ ha)
  rw [unbullet, List.append_assoc, afterMark_mark hpre hmark]
  simp only [List.cons_append, hgap c List.mem_cons_self, if_true]
  rw [List.dropWhile_append_of_pos hmore]

theorem unbullet_some (h : unbullet line = some rest) :
    ∃ pre mark gap, Blanks isBlank pre ∧ Mark mark ∧ Blanks isBlank gap ∧ gap ≠ [] ∧
      line = pre ++ mark ++ gap ++ rest := by
  unfold unbullet at h
  split at h
  · cases h
  · cases h
  · rename_i c after hafter
    split at h
    · rename_i hc
      obtain ⟨pre, mark, hpre, hmark, rfl⟩ := afterMark_some hafter
      obtain ⟨more, hmore, hsplit⟩ := exists_dropWhile (p := isBlank) after
      obtain rfl := Option.some.inj h
      refine ⟨pre, mark, c :: more, hpre, hmark, ?_, by simp, ?_⟩
      · exact List.forall_mem_cons.mpr ⟨hc, hmore⟩
      · conv_lhs => rw [hsplit]
        simp
    · cases h

theorem unbullet_eq_none : unbullet line = none ↔ ¬LooksLikeBullet line := by
  constructor
  · rintro h ⟨pre, mark, gap, rest, hpre, hmark, hgap, hne, rfl⟩
    rw [unbullet_mark hpre hmark hgap hne] at h
    cases h
  · intro h
    cases hrest : unbullet line with
    | none => rfl
    | some rest =>
        obtain ⟨pre, mark, gap, hpre, hmark, hgap, hne, hline⟩ := unbullet_some hrest
        exact absurd ⟨pre, mark, gap, rest, hpre, hmark, hgap, hne, hline⟩ h

theorem unbullet_append (hpre : Blanks isBlank pre) : unbullet (pre ++ line) = unbullet line := by
  unfold unbullet afterMark
  rw [List.dropWhile_append_of_pos hpre]

/-! ### Reading a line -/

/-- Where a line ends up. -/
inductive Part
  | intro (line : Line)
  | point (line : Line)

/-- What a part keeps of its line: all but the bullet and white space around the text. -/
inductive Appears : Line → Part → Prop
  | intro {pre x post : Line} (hpre : Blanks isBlank pre) (hx : Tight isBlank x)
      (hplain : ¬LooksLikeBullet x) (hpost : Blanks isBlank post) :
      Appears (pre ++ x ++ post) (.intro x)
  | point {pre mark gap x post : Line} (hpre : Blanks isBlank pre) (hmark : Mark mark)
      (hgap : Blanks isBlank gap) (hne : gap ≠ []) (hx : Tight isBlank x)
      (hpost : Blanks isBlank post) : Appears (pre ++ mark ++ gap ++ x ++ post) (.point x)

def Part.add : Part → Read → Read
  | .intro line, r => { r with intro := r.intro ++ [line] }
  | .point line, r => { r with points := r.points ++ [line] }

theorem readLine_of_unbullet {r : Read} (h : unbullet (trimEnd raw) = some rest)
    (hrest : strip rest = x) (hx : x ≠ []) :
    readLine r raw = { r with points := r.points ++ [x] } := by
  unfold readLine
  simp only [h, hrest]
  exact if_pos hx

theorem readLine_of_plain {r : Read} (h : unbullet (trimEnd raw) = none)
    (hline : strip (trimEnd raw) = x) :
    readLine r raw = if x ≠ [] then { r with intro := r.intro ++ [x] } else r := by
  unfold readLine
  simp only [h, hline]

/-- **A line that appears as a part is read as that part.** -/
theorem Appears.readLine {part : Part} (h : Appears raw part) (r : Read) :
    readLine r raw = part.add r := by
  cases h with
  | @intro pre x post hpre hx hplain hpost =>
      have hend : trimEnd (pre ++ x ++ post) = pre ++ x := by
        refine rdropWhile_append hpost fun a ha => hx.last a ?_
        rwa [List.getLast?_append_of_ne_nil _ hx.ne_nil] at ha
      have hnone : unbullet (pre ++ x) = none := by
        rw [unbullet_append hpre]
        exact unbullet_eq_none.mpr hplain
      have hstrip : strip (pre ++ x) = x := by
        simpa [strip, trimEnd] using strip_append hpre hx Blanks.nil
      rw [← hend] at hnone hstrip
      rw [readLine_of_plain hnone hstrip]
      exact if_pos hx.ne_nil
  | @point pre mark gap x post hpre hmark hgap hne hx hpost =>
      have hend : trimEnd (pre ++ mark ++ gap ++ x ++ post) = pre ++ mark ++ gap ++ x := by
        refine rdropWhile_append hpost fun a ha => hx.last a ?_
        rwa [List.getLast?_append_of_ne_nil _ hx.ne_nil] at ha
      have hrest : unbullet (trimEnd (pre ++ mark ++ gap ++ x ++ post)) = some x := by
        rw [hend, unbullet_mark hpre hmark hgap hne, dropWhile_of_head hx.head]
      exact readLine_of_unbullet hrest hx.strip hx.ne_nil

/-- **A line is blank and adds nothing, or appears as one part.** -/
theorem appears_of_not_blank (h : ¬Blanks isBlank raw) : ∃ part, Appears raw part := by
  rcases exists_tight isBlank raw with hblank | ⟨pre, x, post, hpre, hx, hpost, rfl⟩
  · exact absurd hblank h
  · by_cases hbullet : LooksLikeBullet x
    · obtain ⟨pre', mark, gap, rest, hpre', hmark, hgap, hne, rfl⟩ := hbullet
      obtain ⟨more, hmore, hrest⟩ := exists_dropWhile (p := isBlank) rest
      -- the white space after the mark ends in what is left, for the line ends in other than that
      have hgap' : Blanks isBlank (gap ++ more) := hgap.append hmore
      have hsplit : pre' ++ mark ++ gap ++ rest =
          pre' ++ mark ++ (gap ++ more) ++ rest.dropWhile isBlank := by
        conv_lhs => rw [hrest]
        simp
      rw [hsplit] at hx ⊢
      have hleft : rest.dropWhile isBlank ≠ [] := by
        intro hnil
        rw [hnil, List.append_nil] at hx
        exact hne (List.append_eq_nil_iff.mp (hx.eq_nil_of_blank hgap')).1
      refine ⟨.point (rest.dropWhile isBlank), ?_⟩
      have happears := Appears.point (hpre.append hpre') hmark hgap' (by simp [hne])
        (hx.suffix hleft (head_dropWhile rest)) hpost
      simpa using happears
    · exact ⟨.intro x, .intro hpre hx hbullet hpost⟩

theorem readLine_blank (h : Blanks isBlank raw) (r : Read) : readLine r raw = r := by
  have hend : trimEnd raw = [] := List.rdropWhile_eq_nil_iff.mpr h
  have hnone : unbullet (trimEnd raw) = none := by
    rw [hend]
    rfl
  have hstrip : strip (trimEnd raw) = [] := by
    rw [hend]
    rfl
  rw [readLine_of_plain hnone hstrip]
  exact if_neg fun hc => hc rfl

/-! ### Reading a text -/

def introLines (parts : List Part) : List Line :=
  parts.filterMap fun
    | .intro line => some line
    | .point _ => none

def pointLines (parts : List Part) : List Line :=
  parts.filterMap fun
    | .intro _ => none
    | .point line => some line

instance (l : Line) : Decidable (Blanks isBlank l) := List.decidableBAll _ l

/-- The lines that say something. -/
def saying (lines : List Line) : List Line := lines.filter fun l => ¬Blanks isBlank l

/-- Lines that appear as the parts are read as the parts. -/
theorem foldl_readLine {lines : List Line} {parts : List Part}
    (h : List.Forall₂ Appears (saying lines) parts) (r : Read) :
    lines.foldl readLine r =
      { intro := r.intro ++ introLines parts, points := r.points ++ pointLines parts } := by
  induction lines generalizing parts r with
  | nil =>
      cases h
      simp [introLines, pointLines]
  | cons raw rest ih =>
      by_cases hblank : Blanks isBlank raw
      · have hsaying : saying (raw :: rest) = saying rest := by simp [saying, hblank]
        rw [hsaying] at h
        rw [List.foldl_cons, readLine_blank hblank, ih h]
      · have hsaying : saying (raw :: rest) = raw :: saying rest := by simp [saying, hblank]
        rw [hsaying] at h
        cases h with
        | @cons _ part _ parts happears hrest =>
            rw [List.foldl_cons, happears.readLine, ih hrest]
            cases part <;> simp [Part.add, introLines, pointLines]

/-- Every line that says something appears as a part. -/
theorem exists_parts (lines : List Line) :
    ∃ parts, List.Forall₂ Appears (saying lines) parts := by
  induction lines with
  | nil => exact ⟨[], .nil⟩
  | cons raw rest ih =>
      obtain ⟨parts, hparts⟩ := ih
      by_cases hblank : Blanks isBlank raw
      · exact ⟨parts, by simpa [saying, hblank] using hparts⟩
      · obtain ⟨part, hpart⟩ := appears_of_not_blank hblank
        refine ⟨part :: parts, ?_⟩
        have hsaying : saying (raw :: rest) = raw :: saying rest := by simp [saying, hblank]
        rw [hsaying]
        exact .cons hpart hparts

theorem parseDesc_of_parts {text : Option String} {parts : List Part}
    (h : List.Forall₂ Appears (saying (linesOf (text.getD ""))) parts) :
    parseDesc text =
      { intro := joinLines (introLines parts),
        points := (pointLines parts).map String.ofList } := by
  unfold parseDesc
  simp only [foldl_readLine h, List.nil_append]

/-! ### Writing a text -/

/-- Without a break of the line. -/
def OneLine (l : Line) : Prop := '\n' ∉ l ∧ '\r' ∉ l

/-- A line of an intro: it says something, has no white space around it and no bullet. -/
structure IntroLine (l : Line) : Prop where
  oneLine : OneLine l
  tight : Tight isBlank l
  plain : ¬LooksLikeBullet l

structure PointLine (l : Line) : Prop where
  oneLine : OneLine l
  tight : Tight isBlank l

section Joining

variable {sep : Line} {lines more : List Line}

/-- What is joined first may as well be joined with the rest. -/
theorem intercalate_intercalate (hne : lines ≠ []) :
    sep.intercalate (sep.intercalate lines :: more) = sep.intercalate (lines ++ more) := by
  by_cases hmore : more = []
  · rw [hmore, List.append_nil, List.intercalate_singleton]
  rw [List.intercalate_cons_of_ne_nil hmore]
  induction lines with
  | nil => exact absurd rfl hne
  | cons l rest ih =>
      by_cases hrest : rest = []
      · rw [hrest, List.intercalate_singleton, List.singleton_append,
          List.intercalate_cons_of_ne_nil hmore]
      · rw [List.intercalate_cons_of_ne_nil hrest, List.append_assoc, List.append_assoc,
          ← List.append_assoc _ sep, ih hrest, List.cons_append,
          List.intercalate_cons_of_ne_nil (by simp [hrest]), List.append_assoc]

theorem mem_intercalate {c : Char} (h : c ∈ sep.intercalate lines) :
    c ∈ sep ∨ ∃ l ∈ lines, c ∈ l := by
  induction lines with
  | nil => simp at h
  | cons l rest ih =>
      by_cases hrest : rest = []
      · rw [hrest, List.intercalate_singleton] at h
        exact Or.inr ⟨l, List.mem_cons_self, h⟩
      · rw [List.intercalate_cons_of_ne_nil hrest, List.mem_append, List.mem_append] at h
        rcases h with (hl | hsep) | hmore
        · exact Or.inr ⟨l, List.mem_cons_self, hl⟩
        · exact Or.inl hsep
        · refine (ih hmore).imp id fun ⟨l', hl', hc⟩ => ⟨l', List.mem_cons_of_mem _ hl', hc⟩

theorem tight_intercalate (hne : lines ≠ []) (h : ∀ l ∈ lines, Tight isBlank l) :
    Tight isBlank (sep.intercalate lines) := by
  induction lines with
  | nil => exact absurd rfl hne
  | cons l rest ih =>
      have hl : Tight isBlank l := h l List.mem_cons_self
      by_cases hrest : rest = []
      · rwa [hrest, List.intercalate_singleton]
      · rw [List.intercalate_cons_of_ne_nil hrest]
        exact hl.append (ih hrest fun l' hl' => h l' (List.mem_cons_of_mem _ hl')) sep

end Joining

variable {lines intros points : List Line}

theorem linesOf_joinLines (h : ∀ l ∈ lines, OneLine l) :
    saying (linesOf (joinLines lines)) = saying lines := by
  by_cases hne : lines = []
  · rw [hne]
    rfl
  have hcr : ∀ c ∈ ['\n'].intercalate lines, c ≠ '\r' := by
    rintro c hc rfl
    rcases mem_intercalate hc with hsep | ⟨l, hl, hmem⟩
    · simp at hsep
    · exact (h l hl).2 hmem
  have hself : (['\n'].intercalate lines).filter (· ≠ '\r') = ['\n'].intercalate lines :=
    List.filter_eq_self.mpr fun c hc => by simpa using hcr c hc
  have hlines : linesOf (joinLines lines) = lines := by
    rw [linesOf, joinLines, String.toList_ofList, hself]
    exact List.splitOn_intercalate _ (fun l hl => (h l hl).1) hne
  rw [hlines]

theorem strip_joinLines (h : ∀ l ∈ lines, Tight isBlank l) :
    strip (joinLines lines).toList = (joinLines lines).toList := by
  by_cases hne : lines = []
  · rw [hne]
    rfl
  · rw [joinLines, String.toList_ofList]
    exact (tight_intercalate hne h).strip

/-- The texts of tight points are what `joinDesc` writes after the marks. -/
theorem strip_points (h : ∀ l ∈ points, Tight isBlank l) :
    ((points.map String.ofList).map fun p => strip p.toList).filter (· ≠ []) = points := by
  have hstrip : (points.map String.ofList).map (fun p => strip p.toList) = points := by
    rw [List.map_map]
    refine (List.map_congr_left fun l hl => ?_).trans (List.map_id points)
    exact (congrArg strip String.toList_ofList).trans (h l hl).strip
  rw [hstrip, List.filter_eq_self]
  exact fun l hl => by simpa using (h l hl).ne_nil

theorem joinDesc_eq (hintros : ∀ l ∈ intros, Tight isBlank l)
    (hpoints : ∀ l ∈ points, Tight isBlank l) :
    joinDesc { intro := joinLines intros, points := points.map String.ofList } =
      joinLines (intros ++ points.map (['•', ' '] ++ ·)) := by
  unfold joinDesc
  simp only [strip_points hpoints, strip_joinLines hintros]
  have hbody : (points.map (['•', ' '] ++ ·)).filter (· ≠ []) = points.map (['•', ' '] ++ ·) := by
    refine List.filter_eq_self.mpr fun l hl => ?_
    obtain ⟨p, -, rfl⟩ := List.mem_map.mp hl
    rfl
  rw [List.filter_cons, hbody]
  by_cases hne : intros = []
  · rw [hne]
    rfl
  · have hfirst : (joinLines intros).toList ≠ [] := by
      rw [joinLines, String.toList_ofList]
      exact (tight_intercalate hne hintros).ne_nil
    rw [if_pos (by simpa using hfirst), joinLines, joinLines, String.toList_ofList,
      intercalate_intercalate hne, joinLines]

/-- The parts that the lines are written for. -/
def partsOf (intros points : List Line) : List Part := intros.map .intro ++ points.map .point

theorem introLines_partsOf : introLines (partsOf intros points) = intros := by
  simp [introLines, partsOf, List.filterMap_append, List.filterMap_map]

theorem pointLines_partsOf : pointLines (partsOf intros points) = points := by
  simp [pointLines, partsOf, List.filterMap_append, List.filterMap_map]

theorem IntroLine.appears (h : IntroLine x) : Appears x (.intro x) := by
  simpa using Appears.intro Blanks.nil h.tight h.plain Blanks.nil

theorem PointLine.appears (h : PointLine x) : Appears (['•', ' '] ++ x) (.point x) := by
  have hspace : Blanks isBlank [' '] := Blanks.singleton rfl
  simpa using Appears.point Blanks.nil (Mark.sign (by decide : '•' ∈ marks)) hspace (by simp)
    h.tight Blanks.nil

theorem Appears.not_blank {part : Part} (h : Appears x part) : ¬Blanks isBlank x := by
  cases h with
  | intro hpre hx hplain hpost =>
      exact fun hb => hx.not_blank fun c hc => hb c (by simp [hc])
  | point hpre hmark hgap hne hx hpost =>
      exact fun hb => hx.not_blank fun c hc => hb c (by simp [hc])

theorem written_appear (hintros : ∀ l ∈ intros, IntroLine l)
    (hpoints : ∀ l ∈ points, PointLine l) :
    List.Forall₂ Appears (saying (intros ++ points.map (['•', ' '] ++ ·)))
      (partsOf intros points) := by
  have hall : List.Forall₂ Appears (intros ++ points.map (['•', ' '] ++ ·))
      (partsOf intros points) := by
    refine List.rel_append ?_ ?_
    · rw [List.forall₂_map_right_iff, List.forall₂_same]
      exact fun l hl => (hintros l hl).appears
    · rw [List.forall₂_map_right_iff, List.forall₂_map_left_iff, List.forall₂_same]
      exact fun l hl => (hpoints l hl).appears
  have hself : saying (intros ++ points.map (['•', ' '] ++ ·)) =
      intros ++ points.map (['•', ' '] ++ ·) := by
    refine List.filter_eq_self.mpr fun l hl => ?_
    obtain ⟨part, -, happears⟩ := Delimited.exists_of_forall₂ hall l hl
    simpa using happears.not_blank
  rwa [hself]

/-- **What is written is read back.** -/
theorem parseDesc_joinDesc (hintros : ∀ l ∈ intros, IntroLine l)
    (hpoints : ∀ l ∈ points, PointLine l) :
    parseDesc (some (joinDesc { intro := joinLines intros, points := points.map String.ofList })) =
      { intro := joinLines intros, points := points.map String.ofList } := by
  have hone : ∀ l ∈ intros ++ points.map (['•', ' '] ++ ·), OneLine l := by
    intro l hl
    rcases List.mem_append.mp hl with hintro | hpoint
    · exact (hintros l hintro).oneLine
    · obtain ⟨p, hp, rfl⟩ := List.mem_map.mp hpoint
      obtain ⟨hlf, hcr⟩ := (hpoints p hp).oneLine
      constructor <;> simp_all
  have htext : joinDesc { intro := joinLines intros, points := points.map String.ofList } =
      joinLines (intros ++ points.map (['•', ' '] ++ ·)) :=
    joinDesc_eq (fun l hl => (hintros l hl).tight) fun l hl => (hpoints l hl).tight
  have hparts : List.Forall₂ Appears (saying (linesOf ((some (joinDesc
      { intro := joinLines intros, points := points.map String.ofList })).getD "")))
      (partsOf intros points) := by
    rw [Option.getD_some, htext, linesOf_joinLines hone]
    exact written_appear hintros hpoints
  rw [parseDesc_of_parts hparts, introLines_partsOf, pointLines_partsOf]

/-! ### Any text -/

theorem mem_splitOn (c : Char) : ∀ text : Line, ∀ l ∈ text.splitOn c,
    c ∉ l ∧ ∀ d ∈ l, d ∈ text := by
  intro text
  induction text with
  | nil => simp
  | cons d rest ih =>
      intro l hl
      rw [List.splitOn_cons_eq_if_modifyHead] at hl
      split at hl
      · rcases List.mem_cons.mp hl with rfl | hl
        · simp
        · exact ⟨(ih l hl).1, fun e he => List.mem_cons_of_mem _ ((ih l hl).2 e he)⟩
      · rename_i hne
        obtain ⟨first, others, hsplit⟩ := List.exists_cons_of_ne_nil (List.splitOn_ne_nil c rest)
        rw [hsplit, List.modifyHead_cons] at hl
        rw [hsplit] at ih
        rcases List.mem_cons.mp hl with rfl | hl
        · obtain ⟨hnot, hmem⟩ := ih first List.mem_cons_self
          constructor
          · rw [List.mem_cons, not_or]
            exact ⟨fun heq => hne (by simp [heq]), hnot⟩
          · intro e he
            exact (List.mem_cons.mp he).elim (fun heq => heq ▸ List.mem_cons_self)
              fun he => List.mem_cons_of_mem _ (hmem e he)
        · obtain ⟨hnot, hmem⟩ := ih l (List.mem_cons_of_mem _ hl)
          exact ⟨hnot, fun e he => List.mem_cons_of_mem _ (hmem e he)⟩

/-- A line of a text has no break in it, and so have the parts of it. -/
theorem oneLine_of_mem {text : String} (h : x ∈ linesOf text) : OneLine x := by
  obtain ⟨hlf, hmem⟩ := mem_splitOn '\n' _ x h
  refine ⟨hlf, fun hcr => ?_⟩
  simpa using (List.mem_filter.mp (hmem _ hcr)).2

theorem Appears.part_oneLine {part : Part} (h : Appears x part) (hx : OneLine x) :
    (∀ l, part = .intro l → IntroLine l) ∧ ∀ l, part = .point l → PointLine l := by
  constructor
  · rintro l rfl
    cases h with
    | intro _ htight hplain _ => exact ⟨by simp_all [OneLine], htight, hplain⟩
  · rintro l rfl
    cases h with
    | point _ _ _ _ htight _ => exact ⟨by simp_all [OneLine], htight⟩

/-- What any text is read as is made of intro lines and points. -/
theorem exists_written (text : Option String) : ∃ parts,
    List.Forall₂ Appears (saying (linesOf (text.getD ""))) parts ∧
      (∀ l ∈ introLines parts, IntroLine l) ∧ ∀ l ∈ pointLines parts, PointLine l := by
  obtain ⟨parts, hparts⟩ := exists_parts (linesOf (text.getD ""))
  have hpart : ∀ part ∈ parts, (∀ l, part = .intro l → IntroLine l) ∧
      ∀ l, part = .point l → PointLine l := by
    intro part hmem
    obtain ⟨x, hx, happears⟩ := Delimited.exists_of_forall₂ hparts.flip part hmem
    exact happears.part_oneLine (oneLine_of_mem (List.mem_of_mem_filter hx))
  refine ⟨parts, hparts, fun l hl => ?_, fun l hl => ?_⟩
  · obtain ⟨part, hmem, heq⟩ := List.mem_filterMap.mp hl
    cases part with
    | intro line => exact (hpart _ hmem).1 l (by simpa using heq)
    | point line => cases heq
  · obtain ⟨part, hmem, heq⟩ := List.mem_filterMap.mp hl
    cases part with
    | intro line => cases heq
    | point line => exact (hpart _ hmem).2 l (by simpa using heq)

/-- An intro is no text, or lines of an intro. -/
def IsIntro (intro : String) : Prop :=
  intro = "" ∨ ∀ l ∈ intro.toList.splitOn '\n', IntroLine l

theorem IsIntro.exists_lines {intro : String} (h : IsIntro intro) :
    ∃ intros, (∀ l ∈ intros, IntroLine l) ∧ intro = joinLines intros := by
  rcases h with rfl | hlines
  · exact ⟨[], by simp, rfl⟩
  · refine ⟨_, hlines, ?_⟩
    rw [joinLines, List.intercalate_splitOn, String.ofList_toList]

/-- **Editing a description loses nothing.** -/
theorem description_kept :
    (∀ text, parseDesc (some (joinDesc (parseDesc text))) = parseDesc text) ∧
    (∀ intro points, IsIntro intro → (∀ p ∈ points, PointLine p.toList) →
      parseDesc (some (joinDesc { intro, points })) = { intro, points }) ∧
    ∀ text, ∃ parts, List.Forall₂ Appears (saying (linesOf (text.getD ""))) parts ∧
      (∀ l ∈ introLines parts, IntroLine l) ∧ (∀ l ∈ pointLines parts, PointLine l) ∧
      parseDesc text = { intro := joinLines (introLines parts),
                         points := (pointLines parts).map String.ofList } := by
  refine ⟨fun text => ?_, fun intro points hintro hpoints => ?_, fun text => ?_⟩
  · obtain ⟨parts, hparts, hintros, hpoints⟩ := exists_written text
    rw [parseDesc_of_parts hparts, parseDesc_joinDesc hintros hpoints]
  · obtain ⟨intros, hintros, rfl⟩ := hintro.exists_lines
    have hlines : (points.map String.toList).map String.ofList = points := by
      rw [List.map_map]
      exact (List.map_congr_left fun p _ => String.ofList_toList).trans (List.map_id points)
    have hall : ∀ l ∈ points.map String.toList, PointLine l := by
      intro l hl
      obtain ⟨p, hp, rfl⟩ := List.mem_map.mp hl
      exact hpoints p hp
    have hread := parseDesc_joinDesc hintros hall
    rwa [hlines] at hread
  · obtain ⟨parts, hparts, hintros, hpoints⟩ := exists_written text
    exact ⟨parts, hparts, hintros, hpoints, parseDesc_of_parts hparts⟩

end Desc

end BookHouse
