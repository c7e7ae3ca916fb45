import Sheetwork.Formula.Cell
import Sheetwork.Workbook.Basic
/-
  Workbooks: surveys. A survey lists the cells of a workbook that hold something, with the part of their look that is
  carried along, and the tables. Texts that begin with an equals sign are formulas, all other cells are inputs. A
  template has the sheets that hold inputs, with their widths and heights, and the inputs with their looks.
-/

namespace Sheetwork

/-- The part of a style that is carried along. -/
structure Look where
  numberFormat : String := "General"
  bold : Bool := false
  italic : Bool := false
  size : Option Float := none
  color : Option String := none
  fill : Option String := none
  horizontal : Option String := none
  vertical : Option String := none
  wrap : Option Bool := none

namespace Look

def noFill : String := "00000000"

def ofStyle (st : Style) : Look :=
  { numberFormat := st.numberFormat
    bold := st.font.bold
    italic := st.font.italic
    size := st.font.size
    color := (st.font.color.bind Color.digits?).filter Color.isFull
    fill := st.fill.foreground.digits?.filter fun s => Color.isFull s && s != noFill
    horizontal := st.align.horizontal
    vertical := st.align.vertical
    wrap := st.align.wrap }

def isNonempty (s : Option String) : Option String := s.filter fun s => !s.isEmpty

variable (l : Look)

def ownSize : Option Float := l.size.filter fun z => z != 0.0 && z != Font.standardSize

def hasFont : Bool := l.bold || l.italic || l.ownSize.isSome || (isNonempty l.color).isSome

def hasAlign : Bool :=
  (isNonempty l.horizontal).isSome || (isNonempty l.vertical).isSome || l.wrap = some true

/-- Gives a style this look; what the look does not say stays. -/
def dress (st : Style) : Outcome Style := do
  let st := if l.numberFormat.isEmpty || l.numberFormat = "General" then st
    else { st with numberFormat := l.numberFormat }
  let st ← if l.hasFont then do
      let color ← match isNonempty l.color with
        | some c => some <$> Color.ofDigits c
        | none => pure none
      pure { st with font := { bold := l.bold, italic := l.italic, size := l.ownSize, color } }
    else pure st
  let st ← match isNonempty l.fill with
    | some c => do pure { st with fill := Fill.solid (← Color.ofDigits c) }
    | none => pure st
  if l.hasAlign then do
    pure { st with align := ← Alignment.ofNames (isNonempty l.horizontal) (isNonempty l.vertical) (l.wrap.filter id) }
  else pure st

end Look

namespace Survey

structure Entry where
  (sheet col : String)
  row : Nat
  value : Value
  kind : Cell.Kind
  look : Look

namespace Entry

variable (e : Entry)

def ref : CellRef := ⟨e.sheet, e.col, e.row⟩

def address : String := e.col ++ Text.ofNat e.row

def formula? : Option FormulaCell :=
  match e.value with
  | .text s => if Text.startsWith "=" s then some ⟨e.sheet, e.col, e.row, s⟩ else none
  | _ => none

def isInput : Bool := e.formula?.isNone

end Entry

structure Page where
  name : String
  entries : List Entry
  merged : List String
  widths : List (String × Float)
  heights : List (Nat × Float)

def standardWidth : Float := 8.43

def standardHeight : Float := 15.0

def pageOf (s : Sheet) : Page :=
  { name := s.name
    entries := s.entries.filterMap fun (p, c) =>
      if c.value.isNull then none
      else some ⟨s.name, p.colName, p.row, c.value, c.kind, Look.ofStyle c.style⟩
    merged := s.merged.map Area.name
    widths := s.widths.filter fun (_, w) => w != 0.0 && w != standardWidth
    heights := s.heights.filter fun (_, h) => h != 0.0 && h != standardHeight }

def tableOf? (p : Page) (name ref : String) : Option Table :=
  (Text.Pattern.areaForm.begin? ref).map fun m =>
    let row := fun n => ((Number.int? (m.group n)).getD 0).toNat
    let first := Column.index (m.group 1)
    let columns := (List.range (Column.index (m.group 3) + 1 - first)).map fun (i : Nat) =>
      let col := Column.name (first + i)
      match p.entries.find? fun e => e.col = col && e.row = row 2 with
      | some e => e.value.toText
      | none => "Column" ++ Text.ofNat (i + 1)
    { name, sheet := p.name, ref, columns, headerRow := row 2, firstRow := row 2 + 1, lastRow := row 4
      col := m.group 1, endCol := m.group 3 }

end Survey

structure Survey where
  pages : List Survey.Page
  tables : List Table

namespace Survey

def ofWorkbook (w : Workbook) : Survey :=
  let pages := w.sheets.map fun s => (s, pageOf s)
  let tables := pages.flatMap fun (s, p) => s.tables.filterMap fun (name, ref) => tableOf? p name ref
  ⟨pages.map (·.2), tables.foldl (fun ts t => putBy Table.name t ts) []⟩

def entries (s : Survey) : List Entry := s.pages.flatMap Page.entries

variable (s : Survey)

def formulas : List FormulaCell := s.entries.filterMap Entry.formula?

def inputs : List Entry := s.entries.filter Entry.isInput

def tableNames : List String := s.tables.map Table.name

/-- Whether formulas read a cell: by itself, in a range or in a table column. -/
def isRead (refs : References) (c : CellRef) : Bool :=
  refs.cells.contains c || refs.ranges.any (covers · c) || refs.tables.any fun t =>
    match tableNamed? s.tables t.table with
    | some tbl => (tbl.columnCells t.column).contains c
    | none => false
where
  /-- Whether a range covers a cell; corners out of order cover nothing. -/
  covers (r : RangeRef) (c : CellRef) : Bool :=
    let n := Column.index c.col
    r.sheet = c.sheet && Column.name n = c.col && Column.index r.col ≤ n && n ≤ Column.index r.endCol &&
      r.row ≤ c.row && c.row ≤ r.endRow

def keptInputs (refs : References) (onlyRead : Bool) : List Entry :=
  if onlyRead then s.inputs.filter fun e => s.isRead refs e.ref else s.inputs

end Survey

end Sheetwork

namespace Sheetwork.Survey

def templateSheet (w : Workbook) (p : Page) : Outcome Workbook := do
  Workbook.checkTitle p.name
  let s : Sheet := { name := p.name, widths := p.widths, heights := p.heights }
  pure (w.append s)

def templateEntry (w : Workbook) (e : Entry) : Outcome Workbook := do
  let s ← w.sheet e.sheet
  let p ← Address.cell e.address
  let s ← s.put p e.value
  let style ← e.look.dress (s.cell p).style
  pure (w.putSheet (s.restyle p fun _ => style))

def template (s : Survey) (inputs : List Entry) : Outcome Workbook := do
  let pages := s.pages.filter fun p => inputs.any fun e => e.sheet = p.name
  let w ← pages.foldlM templateSheet {}
  let w ← inputs.foldlM templateEntry w
  if w.sheets.isEmpty then .error .outOfRange else pure w

end Sheetwork.Survey
