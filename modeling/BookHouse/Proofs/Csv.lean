/-
What the CSV exports carry.

Every writer is the writer of `Lib/Csv.lean` on the texts its cells show, so a reader gets
back those texts, row by row and cell by cell.  A text cell that a spreadsheet would run
shows with an apostrophe before it, and nothing else is changed.  A table without rows is
written as one empty line and cannot be told from a row of one empty cell.
-/
import BookHouse.Export.Csv

namespace BookHouse

variable {γ : Type}

/-- What a cell shows, before a formula is guarded. -/
def CsvStyle.shown (w : CsvStyle) : CsvCell → JsString
  | .null | .undefined => []
  | .number v => w.number v
  | .boolean b => w.boolean b
  | .text s => s

def CsvCell.isText : CsvCell → Bool
  | .text _ => true
  | _ => false

namespace Finance

def shown : CsvCell → JsString
  | .plain c => csvStyle.shown c
  | .date iso => iso

/-- Text, and a date: its year may have a sign. -/
def CsvCell.isText : CsvCell → Bool
  | .plain c => c.isText
  | .date _ => true

end Finance

/-- What a reader gets of a cell. -/
def readCell (shown : γ → JsString) (isText : γ → Bool) (c : γ) : JsString :=
  if isText c then guardFormula (shown c) else shown c

/-- The text of a table is read back cell by cell, and no cell of text runs as a formula. -/
structure Carries (text : JsString) (rows : List (List γ)) (shown : γ → JsString)
    (isText : γ → Bool) : Prop where
  back : readCsv text = some (rows.map (List.map (readCell shown isText)))
  inert : ∀ read, readCsv text = some read → ∀ i j : ℕ, ∀ c, rows[i]?.bind (·[j]?) = some c →
    isText c = true → ∃ s, read[i]?.bind (·[j]?) = some s ∧ runsAsFormula s = false

/-- The cells that the four writers agree on: text, finite numbers and nothing. -/
def CsvCell.Common : CsvCell → Prop
  | .text _ | .null | .undefined => True
  | .number v => v.finite = true
  | .boolean _ => False

/-! ### One cell -/

theorem quoteCell_field (s : JsString) : quoteCell s = csvMarks.field s := rfl

theorem quoteCell_plain {s : JsString} (h : ∀ u ∈ s, csvMarks.special u = false) :
    quoteCell s = s := by
  rw [quoteCell_field, Csv.Marks.field, if_neg]
  simpa using h

theorem guardFormula_inert (s : JsString) : runsAsFormula (guardFormula s) = false := by
  unfold guardFormula
  split
  · rfl
  · rename_i h
    simpa using h

/-- Each cell is written as the field of what a reader gets of it. -/
theorem CsvStyle.cell_field {w : CsvStyle}
    (hn : ∀ v, w.wrap (w.number v) = csvMarks.field (w.number v))
    (hb : ∀ b, w.wrap (w.boolean b) = csvMarks.field (w.boolean b)) (c : CsvCell) :
    w.cell c = csvMarks.field (readCell w.shown CsvCell.isText c) := by
  cases c with
  | text s => rfl
  | number v => exact hn v
  | boolean b => exact hb b
  | null => rfl
  | undefined => rfl

theorem field_number (v : JsNumber) : v.text = csvMarks.field v.text :=
  (quoteCell_plain v.plain).symm

theorem field_finite (v : JsNumber) : (if v.finite then v.text else []) =
    csvMarks.field (if v.finite then v.text else []) := by
  split
  · exact field_number v
  · rfl

theorem Orders.cell_field (c : CsvCell) :
    Orders.csvCell c = csvMarks.field (readCell Orders.csvStyle.shown CsvCell.isText c) :=
  CsvStyle.cell_field (fun _ => rfl) (fun _ => rfl) c

theorem Customers.cell_field (c : CsvCell) :
    Customers.cell c = csvMarks.field (readCell Customers.csvStyle.shown CsvCell.isText c) :=
  CsvStyle.cell_field (fun _ => rfl) (fun _ => rfl) c

theorem Catalog.cell_field (c : CsvCell) :
    Catalog.cell c = csvMarks.field (readCell Catalog.csvStyle.shown CsvCell.isText c) := by
  refine CsvStyle.cell_field field_finite (fun b => ?_) c
  cases b with
  | true => decide
  | false => decide

theorem Finance.cell_field (c : Finance.CsvCell) :
    Finance.cell c = csvMarks.field (readCell Finance.shown Finance.CsvCell.isText c) := by
  cases c with
  | date iso => rfl
  | plain c =>
      refine CsvStyle.cell_field field_finite (fun b => ?_) c
      cases b with
      | true => decide
      | false => decide

/-! ### Tables -/

theorem csvText_file {cell : γ → JsString} {read : γ → JsString}
    (hcell : ∀ c, cell c = csvMarks.field (read c)) (rows : List (List γ)) :
    csvText cell rows = 0xFEFF :: csvMarks.file (rows.map (List.map read)) := by
  have hrow : (fun r : List γ => [0x2C].intercalate (r.map cell)) =
      fun r => csvMarks.record (r.map read) := by
    funext r
    show _ = [0x2C].intercalate ((r.map read).map csvMarks.field)
    rw [List.map_map]
    exact congrArg _ (List.map_congr_left fun c _ => hcell c)
  unfold csvText Csv.Marks.file
  rw [hrow, List.map_map]
  rfl

theorem carries_csvText {cell : γ → JsString} {shown : γ → JsString} {isText : γ → Bool}
    (hcell : ∀ c, cell c = csvMarks.field (readCell shown isText c)) {rows : List (List γ)}
    (h : rows ≠ []) (hall : ∀ r ∈ rows, r ≠ []) :
    Carries (csvText cell rows) rows shown isText := by
  have hback : readCsv (csvText cell rows) =
      some (rows.map (List.map (readCell shown isText))) := by
    rw [csvText_file hcell]
    refine Csv.Marks.decode_file (by simpa using h) fun r hr => ?_
    obtain ⟨cells, hcells, rfl⟩ := List.mem_map.mp hr
    simpa using hall cells hcells
  refine ⟨hback, fun read hread i j c hc htext => ?_⟩
  obtain rfl := Option.some.inj (hback.symm.trans hread)
  obtain ⟨r, hr, hj⟩ := Option.bind_eq_some_iff.mp hc
  refine ⟨readCell shown isText c, ?_, ?_⟩
  · rw [List.getElem?_map, hr]
    show (r.map _)[j]? = _
    rw [List.getElem?_map, hj]
    rfl
  · rw [readCell, if_pos htext]
    exact guardFormula_inert _

theorem csvText_congr {δ : Type} {cell : γ → JsString} {other : δ → JsString} {f : γ → δ}
    {rows : List (List γ)} (h : ∀ r ∈ rows, ∀ c ∈ r, other (f c) = cell c) :
    csvText other (rows.map (List.map f)) = csvText cell rows := by
  unfold csvText
  rw [List.map_map]
  have hrow : ∀ r ∈ rows, ((fun r => [0x2C].intercalate (r.map other)) ∘ List.map f) r =
      [0x2C].intercalate (r.map cell) := by
    intro r hr
    show [0x2C].intercalate ((r.map f).map other) = _
    rw [List.map_map]
    exact congrArg _ (List.map_congr_left (h r hr))
  rw [List.map_congr_left hrow]

theorem CsvCell.Common.cells {c : CsvCell} (h : c.Common) : Catalog.cell c = Orders.csvCell c ∧
    Customers.cell c = Orders.csvCell c ∧ Finance.cell (.plain c) = Orders.csvCell c := by
  cases c with
  | text s => exact ⟨rfl, rfl, rfl⟩
  | null => exact ⟨rfl, rfl, rfl⟩
  | undefined => exact ⟨rfl, rfl, rfl⟩
  | boolean b => exact h.elim
  | number v =>
      have hfinite : (if v.finite then v.text else []) = quoteCell v.text := by
        have hf : v.finite = true := h
        rw [if_pos hf]
        exact field_number v
      exact ⟨hfinite, rfl, hfinite⟩

/-- **Tables of at least one row are carried by all four writers, and those of text, finite
numbers and nothing in the same words.** -/
theorem csv_round_trip (rows : List (List CsvCell)) (h : rows ≠ []) (hall : ∀ r ∈ rows, r ≠ [])
    (headers : List JsString) (hheaders : headers ≠ []) (report : List (List Finance.CsvCell))
    (hreport : ∀ r ∈ report, r ≠ []) (common : List (List CsvCell))
    (hcommon : ∀ r ∈ common, ∀ c ∈ r, c.Common) :
    Carries (Orders.toCsv rows) rows Orders.csvStyle.shown CsvCell.isText ∧
    Carries (Catalog.toCsv rows) rows Catalog.csvStyle.shown CsvCell.isText ∧
    Carries (Customers.toCsv rows) rows Customers.csvStyle.shown CsvCell.isText ∧
    Carries (Finance.toCsv headers report)
      (headers.map (fun s => .plain (.text s)) :: report) Finance.shown Finance.CsvCell.isText ∧
    Catalog.toCsv common = Orders.toCsv common ∧ Customers.toCsv common = Orders.toCsv common ∧
    Finance.toCsv headers (common.map (List.map .plain)) =
      Orders.toCsv (headers.map .text :: common) := by
  refine ⟨carries_csvText Orders.cell_field h hall, carries_csvText Catalog.cell_field h hall,
    carries_csvText Customers.cell_field h hall, carries_csvText Finance.cell_field ?_ ?_,
    ?_, ?_, ?_⟩
  · simp
  · intro r hr
    rcases List.mem_cons.mp hr with rfl | hr
    · simpa using hheaders
    · exact hreport r hr
  · have hcells := csvText_congr (f := id) fun r hr c hc => (hcommon r hr c hc).cells.1
    rw [List.map_id_fun, List.map_id] at hcells
    exact hcells
  · have hcells := csvText_congr (f := id) fun r hr c hc => (hcommon r hr c hc).cells.2.1
    rw [List.map_id_fun, List.map_id] at hcells
    exact hcells
  · have hsame : ∀ r ∈ headers.map CsvCell.text :: common, ∀ c ∈ r,
        Finance.cell (.plain c) = Orders.csvCell c := by
      intro r hr c hc
      rcases List.mem_cons.mp hr with rfl | hr
      · obtain ⟨s, -, rfl⟩ := List.mem_map.mp hc
        rfl
      · exact (hcommon r hr c hc).cells.2.2
    have htext := csvText_congr hsame
    rw [List.map_cons, List.map_map] at htext
    exact htext

def minusFive : JsNumber where
  text := js "-5"
  finite := true
  plain u hu := by
    have hall : (js "-5").all (fun u => csvMarks.special u = false) = true := by decide
    exact of_decide_eq_true (List.all_eq_true.mp hall u hu)

/-- A row with a formula, a quote, a line break, a number and nothing. -/
theorem csv_round_trip_order :
    let row : List CsvCell := [.text (js "=1+1"), .text (js "a\"b\n"), .number minusFive, .null]
    let report : List Finance.CsvCell := [.date (js "2026-01-01T00:00:00.000Z")]
    Carries (Orders.toCsv [row]) [row] Orders.csvStyle.shown CsvCell.isText ∧
    Carries (Catalog.toCsv [row]) [row] Catalog.csvStyle.shown CsvCell.isText ∧
    Carries (Customers.toCsv [row]) [row] Customers.csvStyle.shown CsvCell.isText ∧
    Carries (Finance.toCsv [js "day"] [report])
      [[.plain (.text (js "day"))], report] Finance.shown Finance.CsvCell.isText ∧
    Catalog.toCsv [row] = Orders.toCsv [row] ∧ Customers.toCsv [row] = Orders.toCsv [row] ∧
    Finance.toCsv [js "day"] [row.map .plain] = Orders.toCsv [[.text (js "day")], row] := by
  intro row report
  refine csv_round_trip [row] (by simp) (by simp [row]) [js "day"] (by simp) [report]
    (by simp [report]) [row] fun r hr c hc => ?_
  obtain rfl := List.mem_singleton.mp hr
  simp only [row, List.mem_cons, List.not_mem_nil, or_false] at hc
  rcases hc with rfl | rfl | rfl | rfl
  · trivial
  · trivial
  · rfl
  · trivial

/-- **A table without rows is read as one row, and a date of the year 12026 gets the apostrophe
of text.** -/
theorem csv_round_trip_fails :
    (¬ ∀ rows : List (List CsvCell), (∀ r ∈ rows, r ≠ []) → readCsv (Orders.toCsv rows) =
      some (rows.map (List.map (readCell Orders.csvStyle.shown CsvCell.isText)))) ∧
    ¬ ∀ (headers : List JsString) (report : List (List Finance.CsvCell)), headers ≠ [] →
      (∀ r ∈ report, r ≠ []) → readCsv (Finance.toCsv headers report) =
        some (headers.map guardFormula :: report.map (List.map (readCell Finance.shown
          fun c => match c with
            | .plain c => c.isText
            | .date _ => false))) := by
  constructor
  · intro hall
    exact absurd (hall [] (by simp)) (by decide)
  · intro hall
    exact absurd (hall [js "day"] [[.date (js "+012026-01-01T00:00:00.000Z")]] (by simp) (by simp))
      (by decide +kernel)

end BookHouse
