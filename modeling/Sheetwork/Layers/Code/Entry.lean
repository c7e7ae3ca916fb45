import Sheetwork.Vector.Group
import Sheetwork.Workbook.Files
/-
  Layers: report rows as entries. An entry is a cell or a group of cells; a group is opened up into its cells with the
  formulas that its pattern gives.
-/

namespace Sheetwork.Layers.Code

open Text Text.Pattern

structure Entry where
  sheet : String
  (cell type formula value : Value)
  groupId : Option Int
  direction : Value
  groupSize : Option Int
  pattern : Value
  isLarge : Option Bool
  numberFormat : Value
  (bold italic : Option Bool)
  size : Option Int
  (fontColor fillColor alignment : Value)
  wrap : Option Bool

namespace Entry

def field (r : Record) (name : String) : Value :=
  let v := r.get name
  if v == .text "" then .null else v

/-- A field as a whole number; one that is none counts as empty. -/
def int? (r : Record) (name : String) : Outcome (Option Int) :=
  match field r name with
  | .null => .ok none
  | v =>
    match v.toInt with
    | .ok n => .ok (some n)
    | .error e => if e.cause = .badValue || e.cause = .wrongKind then .ok none else .error e

def bool? (r : Record) (name : String) : Option Bool :=
  match field r name with
  | .null => none
  | .bool b => some b
  | .text s => some (["TRUE", "YES", "1"].contains (upper s))
  | v => some v.truthy

def ofRecord (sheet : String) (r : Record) : Outcome (Option Entry) := do
  let field := field r
  if !(field "Cell").truthy then pure none
  else pure (some
    { sheet, cell := field "Cell", type := field "Type", formula := field "Formula",
      value := field "Value", groupId := ← int? r "GroupID", direction := field "GroupDirection",
      groupSize := ← int? r "GroupSize", pattern := field "PatternFormula",
      isLarge := bool? r "Vectorizable", numberFormat := field "NumberFormat",
      bold := bool? r "FontBold",
      italic := bool? r "FontItalic", size := ← int? r "FontSize", fontColor := field "FontColor",
      fillColor := field "FillColor", alignment := field "Alignment", wrap := bool? r "WrapText" })

def ofReport (w : Workbook) : Outcome (List Entry) := do
  let parts ← (w.sheets.filter fun s => s.name ≠ "_Metadata").mapM fun s => s.records.mapM (ofRecord s.name)
  pure ((parts.map fun es => es.filterMap id).flatten)

variable (e : Entry)

def cellText : Outcome String := Fault.wrongKind.ifNone e.cell.text?

/-- The entry of one cell of a group: a pattern that has the mark gives the formula. -/
def at_ (mark new : String) (address : String) : Outcome Entry := do
  if e.pattern.truthy then
    let p ← Fault.wrongKind.ifNone e.pattern.text?
    if contains mark p then
      pure { e with cell := .text address, formula := .text (stripCharsLeft "'" (replace mark new p)) }
    else pure { e with cell := .text address }
  else pure { e with cell := .text address }

def expand : Outcome (List Entry) := do
  let cell ← e.cellText
  if !contains ":" cell then pure [e]
  else match areaForm.begin? cell with
    | none => pure [e]
    | some m =>
      let a ← Address.areaOf m
      if e.direction == .text "horizontal" then
        (List.range (a.maxCol + 1 - a.minCol)).mapM fun (i : Nat) =>
          let c := Column.name (a.minCol + i : Nat)
          e.at_ "\x7bcol\x7d" c (c ++ ofNat a.minRow)
      else
        (List.range (a.maxRow + 1 - a.minRow)).mapM fun (i : Nat) =>
          e.at_ "\x7brow\x7d" (ofNat (a.minRow + i)) (m.group 1 ++ ofNat (a.minRow + i))

def intValue (n : Option Int) : Value := (n.map .int).getD .null

def boolValue (b : Option Bool) : Value := (b.map .bool).getD .null

def document : Value :=
  .record [("sheet", e.sheet), ("cell", e.cell), ("cell_type", e.type), ("formula", e.formula),
      ("value", e.value), ("group_id", intValue e.groupId), ("group_direction", e.direction),
      ("group_size", intValue e.groupSize), ("pattern_formula", e.pattern),
      ("vectorizable", boolValue e.isLarge), ("number_format", e.numberFormat),
      ("font_bold", boolValue e.bold), ("font_italic", boolValue e.italic),
      ("font_size", intValue e.size),
      ("font_color", e.fontColor), ("fill_color", e.fillColor), ("alignment", e.alignment),
      ("wrap_text", boolValue e.wrap)]

def group? : Option Int := e.groupId.filter (· ≠ 0)

end Entry

structure Drag where
  id : Int
  sheet : String
  direction : Value
  cells : List String
  (base pattern : Value)
  size : Int
  isLarge : Option Bool

namespace Drag

def orText (v w : Value) : Value := if v.truthy then v else w

def ofEntries (id : Int) (first : Entry) (es : List Entry) : Outcome Drag := do
  let cells ← es.mapM fun e => do (← e.expand).mapM Entry.cellText
  let cells := cells.flatten
  pure
    { id, sheet := first.sheet, direction := orText first.direction (.text "vertical"), cells
      base := orText first.formula (.text "")
      pattern := orText first.pattern (orText first.formula (.text ""))
      size := match first.groupSize with
        | some n => if n = 0 then cells.length else n
        | none => cells.length
      isLarge := first.isLarge }

def ofReport (es : List Entry) : Outcome (List Drag) :=
  let members := es.filterMap fun e => e.group?.map (·, e)
  (bucketBy (·.1) members).mapM fun (id, ms) =>
    match ms with
    | (_, first) :: _ => ofEntries id first (ms.map (·.2))
    | [] => .error .outOfRange

def document (g : Drag) : Value :=
  .record [("group_id", .int g.id), ("sheet", g.sheet), ("direction", g.direction),
      ("cells", .list (g.cells.map .text)), ("base_formula", g.base),
      ("pattern_formula", g.pattern),
      ("group_size", .int g.size), ("vectorizable", Entry.boolValue g.isLarge)]

end Drag

end Sheetwork.Layers.Code
