import Sheetwork.Mapping.Regeneration
/-
  Mapping: structured inputs. Scalars go to one sheet, the vectors of each sheet to a sheet of their own, and an index
  says where everything comes from. Vectors under headers that are periods are written as columns, one row for each
  period; all others are written as rows.
-/

/-! Labels of financial periods, such as quarters, halves, fiscal years, months and
dates. -/

namespace Sheetwork.Mapping.Period

open Text Text.Pattern

def shortYear : Pattern := between 2 4 digit

def year : Pattern := times 4 digit

def dash : Pattern := (chr '-').opt

def quarter : Pattern := one fun c => '1' ≤ c && c ≤ '4'

def half : Pattern := one fun c => '1' ≤ c && c ≤ '2'

/-- Estimate, actual, budget, forecast or projection. -/
def mark : Pattern := anyOf "EABFP"

def slash : Pattern := anyOf "-/"

def anyCaseLabels : List Pattern :=
  [quarter ++ chr 'Q' ++ dash ++ shortYear, chr 'Q' ++ quarter ++ dash ++ shortYear, shortYear ++ chr 'Q' ++ quarter,
    shortYear ++ dash ++ quarter ++ chr 'Q',
    chr 'H' ++ half ++ dash ++ shortYear,
    shortYear ++ dash ++ chr 'H' ++ half,
    lit "FY" ++ (chr 'E').opt ++ shortYear ++ mark.opt,
    shortYear ++ lit "FY" ++ (chr 'E').opt ++ mark.opt,
    lit "CY" ++ shortYear ++ mark.opt,
    year ++ mark,
    mark ++ year,
    monthName ++ (anyOf "- '’").opt ++ shortYear,
    shortYear ++ slash.opt ++ monthName,
    choice (["LTM", "NTM", "TTM", "YTD"].map lit) ++ (blank.opt ++ year).opt]

def digitLabels : List Pattern :=
  [year, year ++ slash ++ between 1 2 digit, between 1 2 digit ++ slash ++ between 1 2 digit ++ slash ++ shortYear,
    year ++ slash ++ times 2 digit ++ slash ++ times 2 digit]

def labels : List Pattern := anyCaseLabels.map anyCase ++ digitLabels

def isLabel (s : String) : Bool :=
  let s := strip s
  labels.any fun p => ((p ++ finish).begin? s).isSome

/-- Whether a value stands for a period: a date, a year from 1900 to 2100, or a label. -/
def isPeriod : Value → Outcome Bool
  | .date _ | .datetime _ => .ok true
  | .int n => .ok (1900 ≤ n && n ≤ 2100)
  | .float x => do
    let n ← Value.intOfFloat x
    pure (1900 ≤ n && n ≤ 2100)
  | .text s => .ok (isLabel s)
  | _ => .ok false

def arePeriods (headers : List Value) : Outcome Bool := do
  let found ← headers.filterM isPeriod
  pure (!headers.isEmpty && headers.length ≤ 2 * found.length)

end Sheetwork.Mapping.Period

namespace Sheetwork.Mapping

namespace Structured

structure IndexLine where
  (sheet column source range description : String)
  length : Nat

def IndexLine.values (l : IndexLine) : List Value :=
  [l.sheet, l.sheet, l.column, l.source, l.range, l.description, .ofNat l.length]

def inputFill : Fill := .solid (.rgb "00C6EFCE")

def otherFill : Fill := .solid (.rgb "00EBF3FB")

def noteFont : Font := { italic := true, color := some (.rgb "00808080"), size := some 9.0 }

variable (s : Sheet)

def cellWith (row col : Nat) (v : Value) (f : Style → Style) : Outcome Sheet := do
  let p : Position := ⟨row, col⟩
  let s ← if v.isNull then pure s else s.put p v
  pure (s.restyle p f)

def header (row col : Nat) (v : String) : Outcome Sheet :=
  cellWith s row col (.text v) fun st => { heading st with align := { horizontal := some "center", wrap := some true } }

def headers (vs : List String) : Outcome Sheet := vs.zipIdx.foldlM (fun s (v, i) => header s 1 (i + 1) v) s

variable (source : Option Sheet)

def labelLeftOf (row col : Int) : Outcome (Option String) :=
  match source with
  | none => .ok none
  | some s =>
    if row < 1 && 1 < col then .error .badValue
    else .ok <| (List.range (col - 1).toNat).findSome? fun (i : Nat) =>
      match s.value ⟨row.toNat, (col - 1 - i).toNat⟩ with
      | .text t => if (Text.strip t).isEmpty then none else some (Text.strip t)
      | _ => none

def addScalar (name : String) : Sheet × Nat × List IndexLine → Input → Outcome (Sheet × Nat × List IndexLine)
  | (s, row, lines), i => do
    let label ← labelLeftOf source i.row i.colNumber
    let values := [.text name, .text i.cell, Formatting.optional label, i.value]
    let s ← values.zipIdx.foldlM (fun s (v, j) => cellWith s row (j + 1) v fun st => { st with fill := inputFill }) s
    let line : IndexLine := ⟨"Config", "Value [" ++ i.cell ++ "]", name, i.cell, label.getD "", 1⟩
    pure (s, row + 1, lines ++ [line])

def scalarSheet (source : Option Workbook) (scalars : List (String × List Input)) :
    Outcome (Sheet × List IndexLine) := do
  let s : Sheet := { name := "Config", freeze := some "A2" }
  let s ← headers s ["Source Sheet", "Cell Ref", "Label", "Value"]
  let s := s.withWidths [22.0, 10.0, 45.0, 18.0]
  let (s, _, lines) ← scalars.foldlM (fun (s, row, lines) (name, inputs) => do
    if inputs.isEmpty then pure (s, row, lines)
    else
      let s ← cellWith s row 1 (.text ("── " ++ name ++ " ──")) fun st =>
        { st with font := { bold := true, italic := true, color := some (.rgb "004472C4") } }
      inputs.foldlM (addScalar (source.bind (·.sheet? name)) name) (s.merge ⟨row, 1, row, 4⟩, row + 1, lines))
    (s, 2, ([] : List IndexLine))
  pure (s, lines)

open Text.Pattern in
def yearInText : Text.Pattern := boundary ++ (lit "19" <|> lit "20") ++ times 2 digit ++ boundary

/-- How well a row serves as headers: values, years, and no date-times. -/
def headerScore (vs : List Value) : Int × Int × Int :=
  let count (p : Value → Bool) := ((vs.filter p).length : Int)
  (count fun v => !v.isNull, count (fun v => match v with
      | .int n => 1900 ≤ n && n ≤ 2100
      | .text s => (yearInText.search? s).isSome
      | _ => false),
    -count fun v => match v with
      | .datetime _ => true
      | _ => false)

def scoreLt (a b : Int × Int × Int) : Bool :=
  ((compare a.1 b.1).then ((compare a.2.1 b.2.1).then (compare a.2.2 b.2.2))).isLT

def headerText (col : Int) : Value → String
  | .null => Column.name col
  | .datetime t => Text.ofNat t.date.year
  | v => v.toText

/-- The headers of columns: the best row above the data, or the letters. -/
def findHeaders (cols : List Int) (dataRow : Int) : Headers :=
  let plain := cols.map fun c => (c, Column.name c)
  match source with
  | none => plain
  | some s =>
    let valuesOf (r : Nat) := cols.map fun c => s.value ⟨r, c.toNat⟩
    let count := (min dataRow (s.maxRow + 1) - 1).toNat
    let best := (List.range count).foldl (fun (best : Option (Nat × Int × Int × Int)) i =>
      let score := headerScore (valuesOf (i + 1))
      match best with
      | some (_, b) => if scoreLt b score then some (i + 1, score) else best
      | none => if scoreLt (-1, -1, -1) score then some (i + 1, score) else none) none
    match best with
    | some (row, score) =>
      if score.1 = 0 then plain
      else (cols.zip (valuesOf row)).map fun (c, v) => (c, headerText c v)
    | none => plain

structure Series where
  label : Option String
  (data vector : List Input)

def Series.row (s : Series) : Int := (s.vector.head?.map (·.row)).getD 0

def Series.first (s : Series) : Int := (s.data.head?.map (·.colNumber)).getD 0

def Series.last (s : Series) : Int := (s.data.getLast?.map (·.colNumber)).getD s.first

def seriesOf (vectors : List (List Input)) : List Series :=
  vectors.filterMap fun v =>
    let (label, data) := splitLabel v
    if data.isEmpty then none else some ⟨label, data, v⟩

variable (series : List Series)

def dataColumns : List Int :=
  (((series.flatMap (·.data)).map (·.colNumber)).eraseDups).mergeSort (· ≤ ·)

def seriesLabels : Outcome (List String) := do
  let (labels, _) ← series.foldlM (fun (labels, n) s => do
    let label ← match s.label with
      | some l => pure (some l)
      | none => labelLeftOf source s.row s.first
    pure (match label with
      | some l => (labels ++ [l], n)
      | none => (labels ++ ["Line" ++ Text.ofNat (n + 1)], n + 1))) (([] : List String), 0)
  pure labels

def address (i : Input) : String := Column.name i.colNumber ++ Text.ofInt i.row

def endsOf : String × String :=
  ((((series.head?.bind (·.vector.head?))).map address).getD "",
    (((series.getLast?.bind (·.vector.getLast?))).map address).getD "")

def rowFill (row : Nat) : Fill := if row % 2 = 0 then inputFill else otherFill

def Series.value? (s : Series) (col : Int) : Option Value :=
  (s.data.reverse.find? (·.colNumber = col)).map (·.value)

def note (row width : Nat) (text : String) : Outcome Sheet := do
  let s ← cellWith s row 1 (.text text) fun st => { st with font := noteFont }
  pure (s.merge ⟨row, 1, row, width⟩)

/-- A row of a page; a missing entry leaves its cell as it is. -/
def labelledRow (row : Nat) (wrap : Bool) (label : String) (vs : List (Option Value)) : Outcome Sheet := do
  let fill := rowFill row
  let s ← cellWith s row 1 (.text label) fun st =>
    { st with font := Font.boldOnly, align := { wrap := some wrap }, fill }
  vs.zipIdx.foldlM (fun s (v, j) =>
    match v with
    | some v => cellWith s row (j + 2) v fun st => { st with fill }
    | none => pure s) s

def page (title : String) (widths : Float × Float) (wrap : Bool) (corner : String) (top left : List String)
    (entries : List (List (Option Value))) (text : String) : Outcome Sheet := do
  let s ← headers { name := title, freeze := some "B2" } (corner :: top)
  let s := s.withWidths (widths.1 :: top.map fun _ => widths.2)
  let s ← (left.zip entries).zipIdx.foldlM (fun s ((label, vs), i) => labelledRow s (i + 2) wrap label vs) s
  note s (entries.length + 2) (top.length + 1) text

def headingOf (heads : Headers) (c : Int) : String := ((heads.find? (·.1 = c)).map (·.2)).getD (Column.name c)

def periodSheet (name title : String) (source : Option Sheet) (series : List Series) (heads : Headers) :
    Outcome (Sheet × List IndexLine) := do
  let cols := dataColumns series
  let labels ← seriesLabels source series
  let (start, stop) := endsOf series
  let s ← page title (18.0, 16.0) false ("Period\n[Source: '" ++ name ++ "']") labels (cols.map (headingOf heads))
    (cols.map fun c => series.map fun x => some ((x.value? c).getD .null))
    ("Source: '" ++ name ++ "'  |  cells " ++ start ++ "–" ++ stop ++ "  [layout: dates as rows, metrics as columns]")
  pure (s, (labels.zip series).map fun (label, x) =>
    let range := Column.name x.first ++ Text.ofInt x.row ++ ":" ++ Column.name x.last ++ Text.ofInt x.row
    ⟨title, label, name, range, label, cols.length⟩)

def metricSheet (name title : String) (source : Option Sheet) (series : List Series) (heads : Headers) :
    Outcome (Sheet × List IndexLine) := do
  let cols := dataColumns series
  let labels ← seriesLabels source series
  let columnTitle := fun c => headingOf heads c ++ " [" ++ Column.name c ++ "]"
  let (start, stop) := endsOf series
  let s ← page title (42.0, 14.0) true ("Metric\n[Source: '" ++ name ++ "']") (cols.map columnTitle) labels
    (series.map fun x => cols.map x.value?)
    ("Source: '" ++ name ++ "'  |  input cells from " ++ start ++ " to " ++ stop)
  pure (s, cols.map fun c =>
    ⟨title, columnTitle c, name, Column.name c ++ "* (row varies)", headingOf heads c, series.length⟩)

def vectorSheet (name : String) (source : Option Sheet) (vectors : List (List Input)) (forced : Headers) :
    Outcome (Option (Sheet × List IndexLine)) := do
  let series := seriesOf vectors
  if series.isEmpty then pure none
  else
    let cols := dataColumns series
    let rows := vectors.filterMap fun v => v.head?.map (·.row)
    let heads := if forced.isEmpty then
        findHeaders source cols (rows.foldl min (rows.headD 0))
      else cols.map fun c => (c, headingOf forced c)
    let title := Text.take 31 name
    Workbook.checkTitle title
    let periods ← Period.arePeriods (heads.map fun h => .text h.2)
    some <$> (if periods then periodSheet else metricSheet) name title source series heads

def indexSheet (lines : List IndexLine) : Outcome Sheet := do
  let s : Sheet := { name := "Index", freeze := some "A2" }
  let s ← headers s ["Input File Sheet", "Table", "Column Name", "Source Sheet", "Source Range",
    "Description", "Vector Length"]
  let s := s.withWidths [22.0, 22.0, 30.0, 22.0, 24.0, 45.0, 14.0]
  s.writeRows 2 (lines.map IndexLine.values)

/-- Vectors with at least two values besides their label; all cells of the others are scalars. -/
def settle (inputs : List Input) : List (List Input) × List Input :=
  let (vectors, scalars) := splitInputs inputs
  let (short, long) := vectors.partition fun v => (splitLabel v).2.length ≤ 1
  (long, scalars ++ short.flatten)

/-- Puts an element at a place counted from the front, or from the back if negative. -/
def insertAt {α : Type} (i : Int) (a : α) (xs : List α) : List α :=
  let n := if i < 0 then max 0 (xs.length + i) else i
  xs.take n.toNat ++ a :: xs.drop n.toNat

def moveSheet (w : Workbook) (name : String) (offset : Int) : Outcome Workbook := do
  let i ← Fault.missingKey.ifNone (w.sheets.findIdx? (·.name = name))
  let s ← w.sheet name
  pure { w with sheets := insertAt (i + offset) s (w.sheets.eraseIdx i) }

/-- Adds a page for the vectors of a sheet that are not rows of years. -/
def addVectors (source : Option Workbook) : Workbook × List IndexLine → String × List (List Input) × List Input →
    Outcome (Workbook × List IndexLine)
  | (w, lines), (name, vectors, _) => do
    if vectors.isEmpty then pure (w, lines)
    else
      let (forced, vectors) ← takeHeaders vectors
      if vectors.isEmpty then pure (w, lines)
      else match ← vectorSheet name (source.bind (·.sheet? name)) vectors forced with
        | some (s, more) => pure (w.append s, lines ++ more)
        | none => pure (w, lines)

end Structured

open Structured in
/-- The structured input workbook of a report; labels and headers come from the source if it is
given. -/
def structured (report : Workbook) (source : Option Workbook) : Outcome Workbook := do
  let found ← (rowSheets report).filterMapM fun s => do
    pure ((← inputsOf s).map fun is => (s.name, settle is))
  let (config, lines) ← scalarSheet source (found.map fun (n, _, scalars) => (n, scalars))
  let (w, lines) ← found.foldlM (addVectors source) (fresh.append config, lines)
  let w := dropFirst (w.append (← indexSheet lines))
  let w ← moveSheet w "Index" (1 - w.sheets.length)
  match w.sheets.findIdx? (·.name = "Config") with
  | some i => moveSheet w "Config" (1 - i)
  | none => pure w

end Sheetwork.Mapping
