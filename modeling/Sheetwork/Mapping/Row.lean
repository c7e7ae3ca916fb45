import Sheetwork.Vector.Report
import Sheetwork.Json.Writer
/-
  Mapping: the rows of a mapping report. Inputs and single formulas have a row each, a group of dragged copies has one
  row for its range. Rows come inputs first, then calculations, then outputs, each by row and column.
-/

namespace Sheetwork.Mapping

inductive CellType where
  | input | calculation | output
  deriving DecidableEq

namespace CellType

def name : CellType → String
  | input => "Input"
  | calculation => "Calculation"
  | output => "Output"

def rank : CellType → Nat
  | input => 0
  | calculation => 1
  | output => 2

def all : List CellType := [input, calculation, output]

def named? (s : String) : Option CellType := all.find? (·.name = s)

end CellType

structure Formatting where
  numberFormat : Value := .null
  bold : Bool := false
  italic : Bool := false
  size : Value := .null
  color : Value := .null
  fill : Value := .null
  horizontal : Value := .null
  vertical : Value := .null
  wrap : Bool := false

namespace Formatting

def optional (s : Option String) : Value := s.elim .null .text

def ofLook (l : Look) : Formatting :=
  { numberFormat := .text l.numberFormat, bold := l.bold, italic := l.italic
    size := l.size.elim .null .float, color := optional l.color, fill := optional l.fill
    horizontal := optional l.horizontal, vertical := optional l.vertical,
    wrap := l.wrap = some true }

def ofInfo (v : Value) : Formatting :=
  let font := v.get "font"
  let align := v.get "alignment"
  { numberFormat := v.get "number_format", bold := (font.get "bold").truthy
    italic := (font.get "italic").truthy, size := font.get "size", color := font.get "color"
    fill := v.get "fill_color", horizontal := align.get "horizontal",
    vertical := align.get "vertical"
    wrap := (align.get "wrap_text").truthy }

def fields (f : Formatting) : List (String × Value) :=
  [("NumberFormat", f.numberFormat), ("FontBold", .bool f.bold), ("FontItalic", .bool f.italic),
    ("FontSize", f.size), ("FontColor", f.color), ("FillColor", f.fill),
    ("HorizAlign", f.horizontal), ("VertAlign", f.vertical), ("WrapText", .bool f.wrap)]

end Formatting

structure GroupTag where
  id : String
  direction : Vector.Direction
  size : Nat

structure Row where
  sheet : String
  /-- The address of a cell or the range of a group. -/
  cell : String
  type : CellType
  formula : Option String := none
  value : Value := .null
  group : Option GroupTag := none
  look : Look

def Row.fields (r : Row) : List (String × Value) :=
  let text (s : Option String) := s.elim Value.null .text
  [("Sheet", .text r.sheet), ("Cell", .text r.cell), ("Type", .text r.type.name),
    ("Formula", text r.formula), ("Value", r.value), ("GroupID", text (r.group.map (·.id))),
    ("GroupDirection", text (r.group.map (·.direction.name))),
    ("GroupSize", r.group.elim .null fun g => .ofNat g.size),
    ("PatternFormula", text (r.group.bind fun _ => r.formula))] ++
  (Formatting.ofLook r.look).fields ++ [("IncludeFlag", .bool true)]

def columns : List String :=
  ["Sheet", "Cell", "Type", "Formula", "Value", "GroupID", "GroupDirection", "GroupSize",
    "PatternFormula", "NumberFormat", "FontBold", "FontItalic", "FontSize", "FontColor",
    "FillColor",
    "HorizAlign", "VertAlign", "WrapText", "IncludeFlag"]

def startOf (cell : String) : Nat × Nat :=
  match (Text.Pattern.cellForm 1).begin? ((Text.split ":" cell).headD "") with
  | some m => (((Number.int? (m.group 2)).getD 0).toNat, Column.index (m.group 1))
  | none => (0, 0)

def sortKey (type : String) (cell : String) : Nat × Nat × Nat :=
  let (row, col) := startOf cell
  (((CellType.named? type).map (·.rank)).getD 9, row, col)

def Row.key (r : Row) : Nat × Nat × Nat := sortKey r.type.name r.cell

def keyLe (a b : Nat × Nat × Nat) : Bool :=
  ((compare a.1 b.1).then ((compare a.2.1 b.2.1).then (compare a.2.2 b.2.2))).isLE

def inputRow (e : Survey.Entry) : Row :=
  { sheet := e.sheet, cell := e.address, type := .input, value := e.value, look := e.look }

def groupRange (g : Vector.Group) : String :=
  match g.cells, g.cells.getLast? with
  | first :: _, some last =>
    match g.direction with
    | .vertical => first.address ++ ":" ++ first.col ++ Text.ofNat last.row
    | .horizontal => first.address ++ ":" ++ last.col ++ Text.ofNat first.row
  | _, _ => ""

def sheetRows (s : Survey) (name : String) : List Row :=
  let read := (Vector.classify s.formulas).1.map FormulaCell.ref
  let typeOf (c : FormulaCell) :=
      if read.contains c.ref then CellType.calculation else .output
  let entries := s.entries.filter fun e => e.sheet = name
  let lookOf (c : FormulaCell) := ((entries.find? fun e => e.ref = c.ref).map (·.look)).getD {}
  let (groups, singles) := Vector.group (entries.filterMap Survey.Entry.formula?)
  let groupRows := groups.zipIdx.filterMap fun (g, i) => g.cells.head?.map fun first =>
    { sheet := name, cell := groupRange g, type := typeOf first, formula := some first.formula
      group := some ⟨name ++ "_G" ++ Text.ofNat (i + 1), g.direction, g.cells.length⟩
      look := lookOf first }
  let singleRows := singles.map fun c =>
    { sheet := name, cell := c.address, type := typeOf c, formula := some c.formula, look := lookOf c }
  let rows := (entries.filter Survey.Entry.isInput).map inputRow ++ groupRows ++ singleRows
  rows.mergeSort fun a b => keyLe a.key b.key

/-! The report as a workbook. Each surveyed sheet has a sheet of rows, coloured by
their type; a last sheet keeps merged areas, widths and heights. -/

def headingFont : Font := { bold := true, color := some (.rgb "00FFFFFF") }

def headingFill : Fill := .solid (.rgb "004472C4")

def heading (st : Style) : Style := { st with font := headingFont, fill := headingFill }

def CellType.fill : CellType → Fill
  | input => .solid (.rgb "00C6EFCE")
  | calculation => .solid (.rgb "00FFEB9C")
  | output => .solid (.rgb "00BDD7EE")

def fresh : Workbook := { sheets := [{ name := "Sheet" }] }

/-- Takes the sheet of the start away once there are others. -/
def dropFirst (w : Workbook) : Workbook :=
  if 1 < w.sheets.length then { w with sheets := w.sheets.filter (·.name ≠ "Sheet") } else w

/-- Writes a row of the report; formulas are kept as plain text. -/
def writeRow (s : Sheet) (row : Nat) (r : Row) : Outcome Sheet :=
  r.fields.zipIdx.foldlM (fun s ((name, v), i) => do
    let p : Position := ⟨row, i + 1⟩
    let s ← match v with
      | .text f =>
        if name = "Formula" && Text.startsWith "=" f then pure (s.modify p fun c => c.plain f)
        else s.put p v
      | v => s.put p v
    pure (s.restyle p fun st => { st with fill := r.type.fill })) s

def rowsSheet (name : String) (rows : List Row) : Outcome Sheet := do
  let s : Sheet := { name }
  let s ← s.writeRow 1 (columns.map .text)
  let s := s.restyleRow 1 columns.length heading
  let s ← rows.zipIdx.foldlM (fun s (r, i) => writeRow s (i + 2) r) s
  pure (s.withWidths [14.0, 12.0, 14.0, 40.0, 14.0])

def metadataName : String := "_Metadata"

def layoutRow (p : Survey.Page) : Outcome (List Value) := do
  let widths ← Json.line.write (.record (p.widths.map fun (k, w) => (k, .float w)))
  let heights ← Json.line.write (.record (p.heights.map fun (k, h) => (Text.ofNat k, .float h)))
  pure [p.name, .text (Text.join ";" p.merged), widths, heights]

def layoutSheet (pages : List Survey.Page) : Outcome Sheet := do
  let s : Sheet := { name := metadataName }
  let s ← s.writeRow 1 (["SheetName", "MergedCells", "ColWidths", "RowHeights"].map .text)
  let s := s.restyleRow 1 4 heading
  s.writeRows 2 (← pages.mapM layoutRow)

def report (w : Workbook) (chosen : Option (List String)) : Outcome Workbook := do
  let s := Survey.ofWorkbook w
  let pages := match chosen with
    | none => s.pages
    | some names => names.filterMap fun n => s.pages.find? (·.name = n)
  let out ← pages.foldlM (fun out p => do
    Workbook.checkTitle p.name
    pure (out.append (← rowsSheet p.name (sheetRows s p.name)))) fresh
  pure (dropFirst (out.append (← layoutSheet pages)))

end Sheetwork.Mapping
