import Sheetwork.Layers.Graph
import Sheetwork.Layers.Groups
import Sheetwork.Layers.Naming
import Sheetwork.Layers.Settings
/-
  Layers: the mapping report. A record of a cell has its place, kind, content, look and group. Each sheet lists its
  cells, first those in no group one by one, then each group in one row with the range from its first to its last
  cell; a sheet in front counts them.
-/

namespace Sheetwork.Layers

structure CellInfo where
  position : Position
  cell : Cell
  isMerged : Bool

namespace CellInfo

def ofSheet (s : Sheet) (p : Position) : CellInfo := ⟨p, s.cell p, s.isHidden p⟩

variable (i : CellInfo)

def fontColor : Option String := i.cell.style.font.color.bind fun c => colorText (.text c.digitsText)

def fillColor : Option String := colorText (.text i.cell.style.fill.foreground.digitsText)

def numberFormat : String :=
  let f := i.cell.style.numberFormat
  if f.isEmpty then "General" else f

def optText (s : Option String) : Value := s.elim .null .text

def document : Value :=
  let st := i.cell.style
  Value.record [("row", .ofNat i.position.row), ("column", .ofNat i.position.col),
      ("column_letter", i.position.colName), ("coordinate", i.position.address),
      ("value", i.cell.value), ("formula", optText i.cell.formula?),
      ("data_type", i.cell.kind.letter), ("number_format", i.numberFormat),
      ("font_name", optText st.font.name), ("font_size", st.font.size.elim .null .float),
      ("font_bold", .bool st.font.bold), ("font_italic", .bool st.font.italic),
      ("font_color", optText i.fontColor), ("fill_color", optText i.fillColor),
      ("alignment_horizontal", optText st.align.horizontal),
      ("alignment_vertical", optText st.align.vertical),
      ("wrap_text", st.align.wrap.elim .null .bool),
      ("is_merged", .bool i.isMerged)]

/-- A cell that holds something or has a look of its own; a font with a colour is enough. -/
def isMeaningful : Bool :=
  let font := i.cell.style.font
  let fill := i.cell.style.fill
  !i.cell.value.isNull || font.bold || font.italic ||
    font.size.any (fun z => z != 0.0 && z != 11.0 && z != 10.0) || font.color.isSome ||
    (fill.pattern = some "solid" && fill.foreground.digitsText != "00000000")

end CellInfo

structure CellRecord where
  sheet : String
  position : Position
  kind : Graph.Kind
  formula : String
  value : Value
  numberFormat : String
  (bold italic : Bool)
  size : Value
  (fontColor fillColor alignment : String)
  wrap : Bool
  group : Option Group := none

namespace CellRecord

def ofInfo (g : Graph) (sheet : String) (i : CellInfo) : CellRecord :=
  let st := i.cell.style
  { sheet
    position := i.position
    kind := g.classify sheet i.position.address
    formula := i.cell.formula?.getD ""
    value := i.cell.value
    numberFormat := i.numberFormat
    bold := st.font.bold
    italic := st.font.italic
    size := match st.font.size with
      | some z => if z == 0.0 then .int 11 else .float z
      | none => .int 11
    fontColor := i.fontColor.getD ""
    fillColor := i.fillColor.getD ""
    alignment := st.align.horizontal.getD "general"
    wrap := st.align.wrap.getD false }

def ofSheet (g : Graph) (s : Sheet) : List CellRecord :=
  let infos := s.positions.map (CellInfo.ofSheet s)
  (infos.filter CellInfo.isMeaningful).map (ofInfo g s.name)

def ofWorkbook (g : Graph) (w : Workbook) : List CellRecord := w.sheets.flatMap (ofSheet g)

/-- Marks the records of the cells of groups; of two groups with one cell the later counts. -/
def withGroups (groups : List Group) (r : CellRecord) : CellRecord :=
  { r with group := groups.foldl (fun found g =>
      if g.sheet = r.sheet && g.cells.contains r.position then some g else found) r.group }

variable (r : CellRecord)

def groupId : Nat := (r.group.map Group.id).getD 0

def isLarge : Bool := r.group.any Group.isLarge

def document : Value :=
  Value.record [("sheet_name", r.sheet), ("row_num", .ofNat r.position.row), ("col_num", .ofNat r.position.col),
      ("col_letter", r.position.colName), ("cell_coordinate", r.position.address),
      ("cell_type", r.kind.name), ("formula", r.formula), ("value", r.value),
      ("number_format", r.numberFormat), ("font_bold", .bool r.bold),
      ("font_italic", .bool r.italic), ("font_size", r.size), ("font_color", r.fontColor),
      ("fill_color", r.fillColor), ("alignment", r.alignment),
      ("wrap_text", .bool r.wrap),
      ("group_id", .ofNat r.groupId),
      ("group_direction", .text ((r.group.map fun g => g.direction.name).getD "")),
      ("group_size", .ofNat ((r.group.map Group.size).getD 0)),
      ("pattern_formula", .text ((r.group.map Group.pattern).getD "")),
      ("is_vectorizable", .bool r.isLarge), ("include_flag", .bool true)]

end CellRecord

/-! The report -/

namespace Report

def headings : List String :=
  ["RowNum", "ColNum", "Cell", "Type", "Formula", "Value", "NumberFormat", "FontBold", "FontItalic",
    "FontSize", "FontColor", "FillColor", "Alignment", "WrapText", "GroupID", "GroupDirection",
    "GroupSize", "PatternFormula", "Vectorizable", "IncludeFlag"]

def solid (digits : String) : Fill := Fill.solid (.rgb ("00" ++ digits))

def headingStyle (st : Style) : Style := { st with font := Font.boldOnly, fill := solid "D3D3D3" }

def metadataName : String := "_Metadata"

def sheets (report : Workbook) : List Sheet := report.sheets.filter (·.name ≠ metadataName)

/-- Writes values into a row; nothing is written for an empty one, though its cell is there. -/
def fillRow (s : Sheet) (row : Nat) (vs : List Value) : Outcome Sheet :=
  vs.zipIdx.foldlM (fun s (v, i) =>
    if v.isNull then pure (s.touch ⟨row, i + 1⟩) else s.write row (i + 1) v) s

def shown (formula : String) : String := if formula = "" then "" else "'" ++ formula

def lookValues (r : CellRecord) : List Value :=
  [r.numberFormat, .bool r.bold, .bool r.italic, r.size, r.fontColor, r.fillColor, .text r.alignment, .bool r.wrap]

def cellRow (r : CellRecord) : List Value :=
  [.ofNat r.position.row, .text r.position.colName, .text r.position.address, .text r.kind.name,
    .text (shown r.formula), r.value] ++ lookValues r ++
  [.text "", .text "", .text "", .text "", .bool false, .bool true]

def sortedCells (rs : List CellRecord) : List CellRecord :=
  rs.mergeSort fun a b =>
    a.position.row < b.position.row || (a.position.row = b.position.row && a.position.colName ≤ b.position.colName)

def rangeText (first last : Position) (count : Nat) : String :=
  if count = 1 then first.address else first.address ++ ":" ++ last.address

def groupRow (g : Group) (first last : CellRecord) (count : Nat) : List Value :=
  let a := first.position
  let b := last.position
  [.text (Text.ofNat a.row ++ "-" ++ Text.ofNat b.row),
    .text (if a.colName = b.colName then a.colName else a.colName ++ "[-" ++ b.colName ++ "]"),
    .text (rangeText a b count), .text first.kind.name, .text (shown g.pattern),
    .text (if g.isLarge then "[VECTORIZED]" else "[DRAGGED]")] ++ lookValues first ++
  [.ofNat g.id, .text g.direction.name, .ofNat g.size, .text (shown g.pattern), .bool g.isLarge, .bool true]

def groupFill (g : Group) : Fill := solid (if g.isLarge then "E8F5E9" else "FFF9C4")

def writeGroup (s : Sheet) (row : Nat) (rs : List CellRecord) : Outcome Sheet := do
  let rs := sortedCells rs
  match rs.head?, rs.getLast? with
  | some first, some last =>
    match first.group with
    | some g =>
      let s ← fillRow s row (groupRow g first last rs.length)
      pure (s.restyleRow row headings.length fun st => { st with fill := groupFill g })
    | none => pure s
  | _, _ => pure s

def widths : List Float :=
  headings.zipIdx.map fun (_, i) => if i = 4 || i = 17 then 40.0 else if i = 2 then 20.0 else 15.0

def listingSheet (name : String) (rs : List CellRecord) : Outcome Sheet := do
  let s : Sheet := { name }
  let s ← fillRow s 1 (Value.texts headings)
  let s := s.restyleRow 1 headings.length headingStyle
  let single := rs.filter fun r => r.group.isNone
  let groups := (bucketBy CellRecord.groupId (rs.filter fun r => r.group.isSome)).mergeSort fun a b => a.1 ≤ b.1
  let s ← single.zipIdx.foldlM (fun s (r, i) => fillRow s (i + 2) (cellRow r)) s
  let s ← groups.zipIdx.foldlM (fun s (g, i) => writeGroup s (single.length + i + 2) g.2) s
  pure (s.withWidths widths)

def stamp : String := "2020-01-02 03:04:05"

def metadata (source : String) (version : Value) (rs : List CellRecord) (g : Graph) (a : Analysis) :
    List (String × Value) :=
  let ofKind (k : Graph.Kind) := Value.ofNat (rs.filter fun r => r.kind = k).length
  let count (cs : List (String × Nat)) (k : String) := Value.ofNat ((cs.lookup k).getD 0)
  let blank : String × Value := ("", "")
  [("Original Workbook", source), ("Generated", stamp), ("Pipeline Version", version), blank,
    ("Total Cells", .ofNat rs.length), ("Input Cells", ofKind .input),
    ("Calculation Cells", ofKind .calculation), ("Output Cells", ofKind .output), blank,
    ("Formula Cells", count g.counts "total_formula_cells"),
    ("Cells with Dependencies", count g.counts "cells_with_precedents"),
    ("Circular References", count g.counts "circular_references"), blank,
    ("Dragged Formula Groups", count a.counts "total_groups"),
    ("Dragged Formula Cells", .ofNat (rs.filter fun r => r.group.isSome).length),
    ("Vectorizable Groups", count a.counts "vectorizable_groups"),
    ("Vectorizable Cells", .ofNat (rs.filter CellRecord.isLarge).length),
    ("Horizontal Groups", count a.counts "horizontal_groups"),
    ("Vertical Groups", count a.counts "vertical_groups"),
    ("Avg Group Size", count a.counts "avg_group_size")]

def metadataSheet (name : String) (entries : List (String × Value)) : Outcome Sheet := do
  let s : Sheet := { name }
  let s ← entries.zipIdx.foldlM (fun s ((k, v), i) => do
    let s ← fillRow s (i + 1) [k, v]
    pure (if k = "" then s else s.restyle ⟨i + 1, 1⟩ fun st => { st with font := Font.boldOnly })) s
  pure (s.withWidths [25.0, 40.0])

def workbook (source : String) (version : Value) (rs : List CellRecord) (g : Graph) (a : Analysis) :
    Outcome Workbook := do
  let sheets := bucketBy CellRecord.sheet rs
  let w ← sheets.foldlM (fun (w : Workbook) (name, rs) => do
    Workbook.checkTitle name
    pure (w.append (← listingSheet name rs))) {}
  let front ← metadataSheet (w.freeName metadataName) (metadata source version rs g a)
  pure { w with sheets := front :: w.sheets }

def analyse (threshold : Value) (w : Workbook) : Outcome (Analysis × Workbook) :=
  w.sheets.foldlM (fun (acc : Analysis × Workbook) s => do
    let (a, s, _) ← acc.1.sheet s
    pure (a, acc.2.putSheet s)) ({ threshold }, w)

def ofWorkbook (settings : Settings) (source : String) (w : Workbook) : Outcome Workbook := do
  let g ← Graph.ofWorkbook w
  let (a, w) ← analyse settings.threshold w
  let records := (CellRecord.ofWorkbook g w).map (CellRecord.withGroups a.groups)
  workbook source settings.version records g a

end Report

def openWorkbook (fs : Files) (path : String) : Outcome Workbook :=
  if fs.isThere path then fs.load path
  else .error (.saying .missingFile ("Excel file not found: " ++ path))

def makeReport (settings : Settings) (fs : Files) (source target : String) : Outcome Files := do
  if !fs.isThere source then .error (.saying .missingFile ("Input file not found: " ++ source))
  let w ← openWorkbook fs source
  fs.storeIn target (← Report.ofWorkbook settings (Path.name source) w)

end Sheetwork.Layers
