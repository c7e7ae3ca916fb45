import Sheetwork.Model.Groups
import Sheetwork.Model.StyleText
import Sheetwork.Value.TypedColumn
import Sheetwork.Workbook.Files
/-
  Models: the report of a blueprint. Every sheet gets a sheet with one row per entry; two more sheets hold what
  belongs to the workbook and its sheets as a whole, and the groups of formulas. Formulas stand in a report behind an
  apostrophe.
-/

/-! The blueprint of a workbook. Every cell with a value, a comment or a look of its
own becomes an entry; the value of a formula is the one it had when it was last computed. -/

namespace Sheetwork.Model

def isCaptured (c : Cell) : Bool := !c.value.isNull || c.hasComment || !c.style.isPlain

/-- What stands for a formula that is no text. -/
def specialFormula : String := "__SPECIAL_FORMULA__"

/-- The formula of a cell; a text with an equals sign in front counts as one. -/
def formulaOf (c : Cell) : Value :=
  match c.value with
  | .text s => if Text.startsWith "=" s then .text s else .null
  | _ => if c.isFormula then .text specialFormula else .null

def Entry.ofCell (sheet : String) (p : Position) (c : Cell) : Entry :=
  let formula := formulaOf c
  let value := if formula.isNull then c.value else c.dataOnly.value
  let s := c.style
  { sheet := .text sheet, cell := .text p.address, row := p.row, col := p.col
    kind := Entry.inputKind, formula, value, included := !value.isNull
    format := .text s.numberFormat, bold := some s.font.bold, italic := some s.font.italic
    size := s.font.size, color := toValue (s.font.color.map colorText)
    fill := .text (colorText s.fill.foreground), horizontal := toValue s.align.horizontal
    vertical := toValue s.align.vertical, wrap := s.align.wrap }

def Layout.ofSheet (index : Nat) (s : Sheet) : Layout :=
  { title := s.name, index, merged := toValue (s.merged.map Area.name), freeze := toValue s.freeze
    tab := toValue (s.tab.map colorText) }

namespace Blueprint

/-- The time at which a report is made, in the terms of the prime meridian. -/
def madeAt : String := "2020-01-02T03:04:05+00:00"

def noConversion : String :=
  "Unable to convert .xls workbook. On Windows install pywin32 and Microsoft Excel, " ++
    "or install LibreOffice and make sure `soffice` is on PATH."

/-- The workbook to read for a source: itself, or what an older format was converted to before;
makes the folder of conversions. -/
def normalized (fs : Files) (source cache : String) : Outcome (Files × String) := do
  let path := fs.absolute source
  let cache := fs.absolute cache
  let fs := fs.makeFolder cache
  match Text.lower (Path.suffix path) with
  | ".xlsx" => pure (fs, path)
  | ".xls" =>
    let target := Path.under cache (Path.stem path ++ ".xlsx")
    if !fs.has target then .error (.saying .runFailed noConversion)
    else if !fs.has path then .error ⟨.missingFile, none⟩
    else pure (fs, target)
  | _ => .error (.saying .badValue ("Unsupported workbook extension: " ++ Path.suffix path))

def capture (s : Sheet) : List Entry :=
  (s.entries.filter fun e => isCaptured e.2).map fun (p, c) => Entry.ofCell s.name p c

def ofWorkbook (source template : String) (w : Workbook) : Outcome Blueprint := do
  let entries := w.sheets.map fun s => (s.name, capture s)
  let entries := entries.filter fun e => !e.2.isEmpty
  let entries ← assignGroups (← classify entries)
  pure
    { source, template, order := w.sheetNames, entries
      layouts := w.sheets.zipIdx.map fun (s, i) => (s.name, Layout.ofSheet i s)
      metadata := [("generated_at_utc", madeAt), ("source_ext", .text (Text.lower (Path.suffix source)))] }

def ofFile (fs : Files) (source cache : String) : Outcome (Files × Blueprint) := do
  let (fs, path) ← normalized fs source cache
  pure (fs, ← ofWorkbook (fs.absolute source) path (← fs.load path))

end Blueprint

namespace Report

def columns : List String :=
  ["Sheet", "Cell", "Row", "Column", "Type", "Formula", "Value", "ValueJSON", "NumberFormat", "FontBold",
    "FontItalic", "FontSize", "FontColor", "FillColor", "HorizontalAlignment", "VerticalAlignment",
    "WrapText", "IncludeFlag", "GroupID", "GroupDirection", "GroupSize", "IsDragged", "GroupRange",
    "DragCount", "DragSummary", "PatternFormula", "StyleJSON"]

def metadataColumns : List String := ["Section", "Sheet", "Key", "Value"]

def groupColumns : List String :=
  ["GroupID", "Sheet", "Direction", "GroupSize", "DragCount", "CellRange", "AnchorCell", "AnchorFormula",
    "PatternFormula", "VectorizationHint"]

def metadataSheet : String := "_Metadata"

def groupSheet : String := "_FormulaGroups"

def quoted (v : Value) : Value :=
  match v with
  | .text s => if Text.startsWith "=" s then .text ("'" ++ s) else v
  | v => v

/-! Groups -/

structure Detail where
  id : String
  /-- The first cell row by row. -/
  anchor : Entry
  range : String

namespace Detail

def rangeOf (sheet : Value) (slots : List Slot) : Outcome String := do
  pure (sheet.toText ++ "!" ++ (← (SlotBox.around slots).name))

def ofBlueprint (b : Blueprint) : Outcome (List Detail) := do
  let grouped := (b.entries.flatMap (·.2)).filter (·.group.truthy)
  let groups := Ordered.sortOn (·.1) (bucketBy (fun e => e.group.toText) grouped)
  let details ← groups.mapM fun (id, es) =>
    match Ordered.sortOn Entry.slot es with
    | [] => pure []
    | anchor :: rest => do
      pure [Detail.mk id anchor (← rangeOf anchor.sheet ((anchor :: rest).map Entry.slot))]
  pure details.flatten

def size (d : Detail) : Value := toValue d.anchor.groupSize

def summary (d : Detail) : String :=
  "Dragged formula " ++ d.size.toText ++ " times across " ++ d.range ++ " (anchor " ++
    d.anchor.cell.toText ++ ": " ++ (quoted d.anchor.formula).toText ++ ")"

def row (d : Detail) : List Value :=
  [d.id, d.anchor.sheet, d.anchor.direction, d.size, d.size, d.range, d.anchor.cell,
    quoted d.anchor.formula, quoted d.anchor.pattern, "Vectorizable"]

end Detail

/-! Rows of entries -/

def entryRow (details : List Detail) (e : Entry) : List Value :=
  let detail := details.find? fun d => .text d.id == e.group
  let summary := match detail with
    | some d => if d.anchor.cell == e.cell && d.anchor.sheet == e.sheet then d.summary else ""
    | none => ""
  [e.sheet, e.cell, .int e.row, .int e.col, e.kind, quoted e.formula, e.value, e.valueText, e.format,
    toValue e.bold, toValue e.italic, toValue e.size, e.color, e.fill, e.horizontal, e.vertical,
    toValue e.wrap, .bool e.included, e.group, e.direction, toValue e.groupSize,
    .bool e.group.truthy,
    .text (detail.elim "" Detail.range), (detail.map Detail.size).getD .null, summary,
    quoted e.pattern, e.style]

/-- Writes a column below its heading as a typed column stores it. What is empty stays so; in a
column of moments it looks like one. -/
def writeColumn (s : Sheet) (col : Nat) (heading : String) (vs : List Value) : Outcome Sheet := do
  let type ← ColumnType.ofValues vs
  let entry := fun (s : Sheet) ((v, i) : Value × Nat) => do
    let p : Position := ⟨i + 2, col⟩
    if type = .moment && v.isMissing then
      pure (s.restyle p fun st => { st with numberFormat := NumberFormat.datetime })
    else s.put p (if v.isNull then v else type.store v)
  vs.zipIdx.foldlM entry (← s.put ⟨1, col⟩ (.text heading))

def entrySheet (details : List Detail) (name : String) (es : List Entry) : Outcome Sheet := do
  let rows := es.map (entryRow details)
  columns.zipIdx.foldlM (fun s (heading, j) =>
    writeColumn s (j + 1) heading (rows.map fun r => (r[j]?).getD .null)) { name }

/-! The workbook and its sheets as a whole -/

def metadataRows (b : Blueprint) : Outcome (List (List Value)) := do
  let about (k : String) (v : String) := Value.texts ["Workbook", "", k, v]
  let more ← b.metadata.mapM fun (k, v) => do pure (about k (← Json.line.write v))
  let sheets ← b.order.mapM fun name => do
    let l ← Fault.missingKey.ifNone (b.layout? name)
    let line (k : String) (v : Value) := [.text "SheetLayout", .text name, .text k, v]
    let orEmpty (v : Value) := if v.truthy then v else .text ""
    pure [line "Index" (.text (Text.ofInt l.index)), line "FreezePanes" (orEmpty l.freeze),
      line "TabColor" (orEmpty l.tab), line "MergedRanges" (.text (← Json.line.write l.merged)),
      line "RowDimensions" (.text (← Json.line.write l.rows)),
      line "ColumnDimensions" (.text (← Json.line.write l.columns))]
  pure ([Value.texts metadataColumns, about "SourceWorkbook" b.source, about "NormalizedWorkbook" b.template,
    about "SheetOrder" (← Json.line.write (toValue b.order))] ++ more ++ sheets.flatten)

def workbook (b : Blueprint) : Outcome Workbook := do
  let details ← Detail.ofBlueprint b
  let add (w : Workbook) (name : String) (rows : List (List Value)) := do
    pure (w.append (← Sheet.writeRows { name } 1 rows))
  let entries (w : Workbook) (name : String) := do
    pure (w.append (← entrySheet details name (b.sortedEntries name)))
  let w ← b.order.foldlM entries {}
  let w ← add w metadataSheet (← metadataRows b)
  add w groupSheet (Value.texts groupColumns :: details.map Detail.row)

end Report

def makeReport (fs : Files) (source report cache : String) : Outcome Files := do
  let (fs, b) ← Blueprint.ofFile fs source cache
  fs.storeIn report (← Report.workbook b)

end Sheetwork.Model
