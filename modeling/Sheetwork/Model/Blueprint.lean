import Sheetwork.Value.Convert
import Sheetwork.Workbook.Address
/-
  Models: what a workbook is made of. An entry is one cell with its value or formula, its look and its group; a layout
  is what belongs to a sheet as a whole; a blueprint holds both for all sheets. What a report gives as it stands is
  kept as a value, so that an edited report can hold anything.
-/

namespace Sheetwork.Model

structure Entry where
  (sheet cell : Value)
  (row col : Int)
  /-- Input, calculation or output. -/
  (kind formula value : Value)
  included : Bool
  format : Value := .null
  bold : Option Bool := none
  italic : Option Bool := none
  size : Option Float := none
  color : Value := .null
  fill : Value := .null
  horizontal : Value := .null
  vertical : Value := .null
  wrap : Option Bool := none
  style : Value := .null
  valueText : Value := .text ""
  group : Value := .null
  direction : Value := .null
  groupSize : Option Int := none
  pattern : Value := .null

namespace Entry

def inputKind : Value := .text "Input"

def calculationKind : Value := .text "Calculation"

def outputKind : Value := .text "Output"

variable (e : Entry)

def isInput : Bool := e.kind == inputKind

def slot : Slot := ⟨e.row, e.col⟩

def hasFormulaText : Outcome Bool :=
  match e.formula with
  | .text s => .ok (Text.startsWith "=" s)
  | v => if v.truthy then .error .noProperty else .ok false

def document : Value :=
  let fields : List (String × Value) :=
    [("sheet", e.sheet), ("row", .int e.row), ("column", .int e.col), ("cell", e.cell),
      ("cell_type", e.kind), ("formula", e.formula), ("value", e.value),
      ("include_flag", .bool e.included), ("number_format", e.format),
      ("font_bold", toValue e.bold),
      ("font_italic", toValue e.italic), ("font_size", toValue e.size), ("font_color", e.color),
      ("fill_color", e.fill), ("horizontal_alignment", e.horizontal),
      ("vertical_alignment", e.vertical), ("wrap_text", toValue e.wrap), ("style_json", e.style),
      ("value_json", e.valueText), ("group_id", e.group), ("group_direction", e.direction),
      ("group_size", toValue e.groupSize), ("pattern_formula", e.pattern)]
  .record (fields.filter fun f => !f.2.isNull && f.2 != .text "")

end Entry

structure Layout where
  title : String
  index : Int := 0
  merged : Value := .list []
  freeze : Value := .null
  tab : Value := .null
  rows : Value := .list []
  columns : Value := .list []

def Layout.document (l : Layout) : Value :=
  .record [("title", l.title), ("index", .int l.index), ("merged_ranges", l.merged),
    ("freeze_panes", l.freeze), ("tab_color", l.tab), ("row_dimensions", l.rows),
    ("column_dimensions", l.columns)]

structure Blueprint where
  source : String
  /-- The workbook whose looks are kept. -/
  template : String
  order : List String
  layouts : List (String × Layout)
  /-- The entries of the sheets that have any. -/
  entries : List (String × List Entry)
  metadata : List (String × Value)
  deriving Inhabited

namespace Blueprint

variable (b : Blueprint) (sheet : String)

def layout? : Option Layout := (b.layouts.find? (·.1 = sheet)).map (·.2)

def entriesOf : List Entry := ((b.entries.find? (·.1 = sheet)).map (·.2)).getD []

def sortedEntries : List Entry := Ordered.sortOn Entry.slot (b.entriesOf sheet)

def document : Value :=
  .record [("source", b.source), ("normalized", b.template), ("order", toValue b.order),
    ("layouts", .list (b.layouts.map fun (n, l) => .list [n, l.document])),
    ("cells", .list (b.entries.map fun (n, es) => .list [n, .list (es.map Entry.document)])),
    ("metadata", .record b.metadata)]

end Blueprint

end Sheetwork.Model
