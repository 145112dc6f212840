/-
Comma-separated text as RFC 4180 reads it, over any alphabet with the four marks it needs.

The reader is a state machine that takes one character at a time and refuses what the
grammar has no place for: a quote or a line feed in a bare field, anything but a separator
after a closing quote, a carriage return without its line feed.  It is shown to invert the
writer, one field, one record and one file at a time.
-/
import Mathlib.Data.List.Basic
import Mathlib.Data.List.Nodup

namespace Csv

universe u

/-- The characters that a file is built around. -/
structure Marks (α : Type u) where
  quote : α
  comma : α
  cr : α
  lf : α
  distinct : [quote, comma, cr, lf].Nodup

inductive Mode
  | start | plain | quoted
  /-- a quote inside a quoted field: its end, or the first of a doubled one -/
  | closing
  /-- after the carriage return that ends a record -/
  | ending
deriving DecidableEq, Repr

/-- What was read so far: the field, the fields of the record, the records. -/
structure Reader (α : Type u) where
  mode : Mode := .start
  cell : List α := []
  row : List (List α) := []
  rows : List (List (List α)) := []

variable {α : Type u}

namespace Reader

def endCell (r : Reader α) : Reader α :=
  { r with mode := .start, cell := [], row := r.row ++ [r.cell] }

def endRow (r : Reader α) : Reader α := { rows := r.rows ++ [r.row ++ [r.cell]] }

/-- The records of a text that ends here; a last CRLF opens no record. -/
def finish (r : Reader α) : Option (List (List (List α))) :=
  match r.mode with
  | .quoted | .ending => none
  | .start => if r.row.isEmpty then some r.rows else some r.endRow.rows
  | .plain | .closing => some r.endRow.rows

end Reader

namespace Marks

variable {m : Marks α}

theorem comma_ne_quote : m.comma ≠ m.quote := by
  have h := m.distinct
  simp only [List.nodup_cons, List.mem_cons] at h
  tauto

theorem cr_ne_quote : m.cr ≠ m.quote := by
  have h := m.distinct
  simp only [List.nodup_cons, List.mem_cons] at h
  tauto

theorem cr_ne_comma : m.cr ≠ m.comma := by
  have h := m.distinct
  simp only [List.nodup_cons, List.mem_cons] at h
  tauto

end Marks

variable [DecidableEq α]

namespace Marks

variable (m : Marks α)

/-- A bare field has none of these. -/
def special (a : α) : Bool := a = m.quote || a = m.comma || a = m.cr || a = m.lf

/-- A separator after a field. -/
def stop (r : Reader α) (a : α) : Option (Reader α) :=
  if a = m.comma then some r.endCell
  else if a = m.cr then some { r with mode := .ending }
  else none

def step (r : Reader α) (a : α) : Option (Reader α) :=
  match r.mode with
  | .start =>
      if a = m.quote then some { r with mode := .quoted }
      else if m.special a then m.stop r a
      else some { r with mode := .plain, cell := r.cell ++ [a] }
  | .plain =>
      if m.special a then m.stop r a else some { r with cell := r.cell ++ [a] }
  | .quoted =>
      if a = m.quote then some { r with mode := .closing }
      else some { r with cell := r.cell ++ [a] }
  | .closing =>
      if a = m.quote then some { r with mode := .quoted, cell := r.cell ++ [a] }
      else m.stop r a
  | .ending => if a = m.lf then some r.endRow else none

def decode (text : List α) : Option (List (List (List α))) :=
  (text.foldlM m.step {}).bind Reader.finish

/-- A field as it is written, in quotes where it has a mark. -/
def field (s : List α) : List α :=
  if s.any m.special then
    m.quote :: (s.flatMap fun a => if a = m.quote then [a, a] else [a]) ++ [m.quote]
  else s

def record (cells : List (List α)) : List α := [m.comma].intercalate (cells.map m.field)

def file (rows : List (List (List α))) : List α :=
  [m.cr, m.lf].intercalate (rows.map m.record) ++ [m.cr, m.lf]

/-! ### Reading one field back -/

variable {m} {s : List α} {row : List (List α)} {rows : List (List (List α))}

theorem foldlM_plain : ∀ (s cell : List α), (∀ a ∈ s, m.special a = false) →
    s.foldlM m.step ⟨.plain, cell, row, rows⟩ = some ⟨.plain, cell ++ s, row, rows⟩ := by
  intro s
  induction s with
  | nil =>
      intro cell _
      rw [List.append_nil]
      rfl
  | cons a rest ih =>
      intro cell hs
      have hstep : m.step ⟨.plain, cell, row, rows⟩ a =
          some ⟨.plain, cell ++ [a], row, rows⟩ := by
        simp [step, hs a List.mem_cons_self]
      rw [List.foldlM_cons, hstep]
      show rest.foldlM m.step ⟨.plain, cell ++ [a], row, rows⟩ = _
      rw [ih _ fun b hb => hs b (List.mem_cons_of_mem _ hb), List.append_assoc]
      rfl

theorem foldlM_quoted : ∀ (s cell : List α),
    (s.flatMap fun a => if a = m.quote then [a, a] else [a]).foldlM m.step
      ⟨.quoted, cell, row, rows⟩ = some ⟨.quoted, cell ++ s, row, rows⟩ := by
  intro s
  induction s with
  | nil =>
      intro cell
      rw [List.append_nil]
      rfl
  | cons a rest ih =>
      intro cell
      have hone : (if a = m.quote then [a, a] else [a]).foldlM m.step
          ⟨.quoted, cell, row, rows⟩ = some ⟨.quoted, cell ++ [a], row, rows⟩ := by
        by_cases ha : a = m.quote
        · simp [step, ha]
        · simp [step, ha]
      rw [List.flatMap_cons, List.foldlM_append, hone]
      refine (ih (cell ++ [a])).trans ?_
      rw [List.append_assoc]
      rfl

/-- After a field as written the reader has the field, and waits for a separator. -/
theorem foldlM_field (s : List α) (row : List (List α)) (rows : List (List (List α))) :
    ∃ mode, (m.field s).foldlM m.step ⟨.start, [], row, rows⟩ = some ⟨mode, s, row, rows⟩ ∧
      mode ≠ .quoted ∧ mode ≠ .ending := by
  unfold field
  split
  · refine ⟨.closing, ?_, by decide, by decide⟩
    have hopen : m.step ⟨.start, [], row, rows⟩ m.quote = some ⟨.quoted, [], row, rows⟩ := by
      simp [step]
    have hclose : m.step ⟨.quoted, s, row, rows⟩ m.quote = some ⟨.closing, s, row, rows⟩ := by
      simp [step]
    rw [List.cons_append, List.foldlM_cons, hopen]
    show List.foldlM m.step _ _ = _
    rw [List.foldlM_append, foldlM_quoted]
    show List.foldlM m.step _ _ = _
    rw [List.foldlM_cons, List.nil_append, hclose]
    rfl
  · rename_i hbare
    have hs : ∀ a ∈ s, m.special a = false := by simpa using hbare
    cases s with
    | nil => exact ⟨.start, rfl, by decide, by decide⟩
    | cons a rest =>
        refine ⟨.plain, ?_, by decide, by decide⟩
        have hquote : a ≠ m.quote := by
          rintro rfl
          simpa [special] using hs _ List.mem_cons_self
        have hfirst : m.step ⟨.start, [], row, rows⟩ a = some ⟨.plain, [a], row, rows⟩ := by
          simp [step, hquote, hs a List.mem_cons_self]
        rw [List.foldlM_cons, hfirst]
        exact foldlM_plain rest [a] fun b hb => hs b (List.mem_cons_of_mem _ hb)

/-- A reader that waits for a separator takes one. -/
theorem step_separator {mode : Mode} (hquoted : mode ≠ .quoted) (hending : mode ≠ .ending)
    {a : α} (ha : a = m.comma ∨ a = m.cr) :
    m.step ⟨mode, s, row, rows⟩ a = m.stop ⟨mode, s, row, rows⟩ a := by
  have hspecial : m.special a = true := by
    rcases ha with rfl | rfl
    · simp [special]
    · simp [special]
  have hquote : a ≠ m.quote := by
    rcases ha with rfl | rfl
    · exact comma_ne_quote
    · exact cr_ne_quote
  cases mode with
  | start => simp [step, hquote, hspecial]
  | plain => simp [step, hspecial]
  | closing => simp [step, hquote]
  | quoted => exact absurd rfl hquoted
  | ending => exact absurd rfl hending

/-! ### Records and files -/

theorem record_cons (s : List α) (cells : List (List α)) (h : cells ≠ []) :
    m.record (s :: cells) = m.field s ++ m.comma :: m.record cells := by
  cases cells with
  | nil => exact absurd rfl h
  | cons t cells => simp [record, List.intercalate]

/-- A record and its CRLF are read as one record. -/
theorem foldlM_record (rows : List (List (List α))) : ∀ (cells row : List (List α)), cells ≠ [] →
    (m.record cells ++ [m.cr, m.lf]).foldlM m.step ⟨.start, [], row, rows⟩ =
      some { rows := rows ++ [row ++ cells] } := by
  intro cells
  induction cells with
  | nil =>
      intro row h
      exact absurd rfl h
  | cons s cells ih =>
      intro row _
      obtain ⟨mode, hfield, hquoted, hending⟩ := foldlM_field (m := m) s row rows
      by_cases hlast : cells = []
      · subst hlast
        have hrecord : m.record [s] = m.field s := by simp [record, List.intercalate]
        have hcr : m.step ⟨mode, s, row, rows⟩ m.cr = some ⟨.ending, s, row, rows⟩ := by
          rw [step_separator hquoted hending (Or.inr rfl)]
          simp [stop, cr_ne_comma]
        rw [hrecord, List.foldlM_append, hfield]
        show List.foldlM m.step _ _ = _
        rw [List.foldlM_cons, hcr]
        simp [step, Reader.endRow]
      · have hcomma : m.step ⟨mode, s, row, rows⟩ m.comma =
            some ⟨.start, [], row ++ [s], rows⟩ := by
          rw [step_separator hquoted hending (Or.inl rfl)]
          simp [stop, Reader.endCell]
        rw [record_cons s cells hlast, List.append_assoc, List.foldlM_append, hfield]
        show List.foldlM m.step _ _ = _
        rw [List.cons_append, List.foldlM_cons, hcomma]
        refine (ih (row ++ [s]) hlast).trans ?_
        rw [List.append_assoc]
        rfl

theorem file_cons (row : List (List α)) (rows : List (List (List α))) (h : rows ≠ []) :
    m.file (row :: rows) = (m.record row ++ [m.cr, m.lf]) ++ m.file rows := by
  cases rows with
  | nil => exact absurd rfl h
  | cons r rows => simp [file, List.intercalate]

theorem foldlM_file : ∀ (rows read : List (List (List α))), rows ≠ [] → (∀ r ∈ rows, r ≠ []) →
    (m.file rows).foldlM m.step { rows := read } = some { rows := read ++ rows } := by
  intro rows
  induction rows with
  | nil =>
      intro read h
      exact absurd rfl h
  | cons row rows ih =>
      intro read _ hall
      have hrow := foldlM_record (m := m) read row [] (hall row List.mem_cons_self)
      by_cases hlast : rows = []
      · subst hlast
        have hfile : m.file [row] = m.record row ++ [m.cr, m.lf] := by
          simp [file, List.intercalate]
        rw [hfile]
        exact hrow
      · rw [file_cons row rows hlast, List.foldlM_append, hrow]
        refine (ih _ hlast fun r hr => hall r (List.mem_cons_of_mem _ hr)).trans ?_
        rw [List.append_assoc]
        rfl

/-- **A file of at least one record, each of at least one field, is read back.** -/
theorem decode_file (h : rows ≠ []) (hall : ∀ r ∈ rows, r ≠ []) :
    m.decode (m.file rows) = some rows := by
  unfold decode
  rw [foldlM_file rows [] h hall]
  rfl

end Marks

end Csv
