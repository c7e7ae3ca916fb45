import Sheetwork.Model.Report
/-
  Models: workbooks from blueprints. If the template is there, values and formulas go into a copy of it; otherwise
  sheets are made anew with the layouts and looks that the blueprint gives.
-/

namespace Sheetwork.Model

/-! The blueprint that a report describes. Of two columns with one name the later
counts; a row without a value is no entry. -/

namespace Report

def otherSheets : List String := [metadataSheet, groupSheet, "Index", "Config"]

/-- A field of a row, or what stands for one that is missing or empty. -/
def fieldOr (r : Record) (name : String) (default : Value := .null) : Value :=
  match r.get name with
  | .null => default
  | v => v

def unquotedFormula (v : Value) : Value :=
  match v with
  | .text s => if Text.startsWith "'=" s then .text (Text.drop 1 s) else v
  | v => v

def flag? (v : Value) : Option Bool := if v.isNull then none else some v.truthy

def optionally {α : Type} (read : Value → Outcome α) (v : Value) : Outcome (Option α) :=
  if v.isNull then .ok none else (read v).map some

def entry (r : Record) : Outcome Entry := do
  let valueText := fieldOr r "ValueJSON" (.text "")
  let value ← if valueText.truthy then readValue valueText else pure (r.get "Value")
  let row ← (fieldOr r "Row" (.int 0)).toInt
  let col ← (fieldOr r "Column" (.int 0)).toInt
  let size ← optionally Value.toFloat (r.get "FontSize")
  let groupSize ← optionally Value.toInt (r.get "GroupSize")
  pure
    { sheet := r.get "Sheet", cell := r.get "Cell", row, col, size, groupSize, value, valueText
      kind := fieldOr r "Type" Entry.inputKind, formula := unquotedFormula (r.get "Formula")
      included := (fieldOr r "IncludeFlag" (.bool false)).truthy, format := r.get "NumberFormat"
      bold := flag? (r.get "FontBold"), italic := flag? (r.get "FontItalic")
      color := r.get "FontColor", fill := r.get "FillColor",
      horizontal := r.get "HorizontalAlignment"
      vertical := r.get "VerticalAlignment", wrap := flag? (r.get "WrapText")
      style := r.get "StyleJSON", group := r.get "GroupID", direction := r.get "GroupDirection"
      pattern := unquotedFormula (r.get "PatternFormula") }

def entries (s : Sheet) : Outcome (List Entry) := (s.records.filter fun r => r.values.any fun v => !v.isNull).mapM entry

/-! The workbook and its sheets as a whole -/

/-- What the rows of the metadata say so far. -/
structure Notes where
  source : Option String := none
  template : Option String := none
  order : Value := .list []
  others : List (String × Value) := []
  layouts : List (String × String × Value) := []

namespace Notes

def pathIn (v : Value) : Outcome (Option String) :=
  match v with
  | .text s => .ok (if s.isEmpty then none else some (Path.tidy s))
  | v => if v.truthy then .error .wrongKind else .ok none

def jsonIn (v : Value) : Outcome Value :=
  match v with
  | .text s => Json.read s
  | _ => .error .wrongKind

def listKeys : List String := ["MergedRanges", "RowDimensions", "ColumnDimensions"]

def add (n : Notes) (row : List Value) : Outcome Notes :=
  match row with
  | [sect, sheet, key, v] =>
    if key.isNull then .ok n
    else if sect == .text "Workbook" then
      match key.toText with
      | "SourceWorkbook" => do pure { n with source := ← pathIn v }
      | "NormalizedWorkbook" => do pure { n with template := ← pathIn v }
      | "SheetOrder" => do pure { n with order := ← if v.truthy then jsonIn v else pure (.list []) }
      | k => .ok { n with others := putBy Prod.fst (k, (jsonIn v).toOption.getD v) n.others }
    else if sect == .text "SheetLayout" && sheet.truthy then do
      let k := key.toText
      let v ← if listKeys.contains k then
          pure (if v.truthy then (jsonIn v).toOption.getD (.list []) else .list [])
        else if k = "Index" then do pure (.int (← v.toInt))
        else pure v
      pure { n with layouts := n.layouts ++ [(sheet.toText, k, v)] }
    else .ok n
  | _ => .error .badValue

def ofSheet (s : Sheet) : Outcome Notes := (s.records.map Record.values).foldlM add {}

def layout (n : Notes) (sheet : String) : Outcome Layout := do
  let find (k : String) (default : Value) :=
    ((n.layouts.reverse.find? fun (s, k', _) => s = sheet && k' = k).map (·.2.2)).getD default
  let said (k : String) := let v := find k .null; if v.truthy then v else .null
  pure
    { title := sheet, index := ← (find "Index" (.int 0)).toInt, merged := find "MergedRanges" (.list [])
      freeze := said "FreezePanes", tab := said "TabColor", rows := find "RowDimensions" (.list [])
      columns := find "ColumnDimensions" (.list []) }

end Notes

def namesIn (v : Value) : Outcome (List String) := do
  (← v.elements).mapM fun n => Fault.wrongKind.ifNone n.text?

def blueprint (w : Workbook) : Outcome Blueprint := do
  let about ← (Fault.saying .badValue "mapping_report.xlsx is missing _Metadata sheet").ifNone (w.sheet? metadataSheet)
  let notes ← Notes.ofSheet about
  let absent := Fault.saying .badValue "_Metadata must include SourceWorkbook and NormalizedWorkbook"
  match notes.source, notes.template with
  | some source, some template => do
    let order ← namesIn notes.order
    let layouts ← order.foldlM (fun ls name => do pure (putBy Prod.fst (name, ← notes.layout name) ls)) []
    let sheets := w.sheets.filter fun s => !otherSheets.contains s.name
    let entries ← sheets.mapM fun s => do pure (s.name, ← entries s)
    pure
      { source, template, order, layouts, metadata := notes.others
        entries := entries.filter fun e => !e.2.isEmpty }
  | _, _ => .error absent

end Report

def readReport (fs : Files) (report : String) : Outcome Blueprint := do
  Report.blueprint (← fs.load report)

structure CellName where
  (sheet cell : String)
  deriving DecidableEq, Hashable

/-- Values that take the place of recorded ones; of two for one cell the later counts. -/
abbrev Overrides := Std.HashMap CellName Value

structure Rebuild where
  formulas : Bool := true
  /-- Recorded inputs stand whatever else is given. -/
  asRecorded : Bool := false
  overrides : Overrides := ∅

def positionOf (v : Value) : Outcome Position := do
  let address ← match v with
    | .text s => pure s
    | .int n => pure (Text.ofInt n)
    | .bool b => pure (Value.bool b).toText
    | _ => .error .wrongKind
  match ← Address.target address with
  | .cell p => pure p
  | .several => .error .noProperty

def Entry.position (e : Entry) : Outcome Position := positionOf e.cell

namespace Layout

def areaIn (v : Value) : Outcome Area :=
  match v with
  | .text a => Fault.badValue.ifNone (Address.area? a)
  | _ => .error .wrongKind

def mergeAll (l : Layout) (s : Sheet) : Outcome Sheet := do
  (← l.merged.elements).foldlM (fun s v => do pure (s.merge (← areaIn v))) s

def setFreeze (s : Sheet) (v : Value) : Outcome Sheet :=
  match v with
  | .null | .text "" => .ok s
  | .text a => do
    let _ ← coordinates a
    pure { s with freeze := if a = "A1" then none else some a }
  | _ => .error .wrongKind

def setTab (s : Sheet) (v : Value) : Outcome Sheet :=
  match v with
  | .null | .text "" => .ok s
  | .text c => do pure { s with tab := some (← Color.ofDigits c) }
  | _ => .error .wrongKind

def field (v : Value) (k : String) (default : Value := .null) : Outcome Value :=
  match v with
  | .keyed _ => .ok ((v.get? k).getD default)
  | _ => .error .noProperty

def outline (v : Value) : Outcome Unit := do
  let _ ← (← field v "outline_level" (.int 0)).toInt

def setHeight (s : Sheet) (v : Value) : Outcome Sheet := do
  let row ← (← field v "row").toInt
  let h ← Report.optionally Value.toFloat (← field v "height")
  outline v
  pure (h.elim s fun h => s.putHeight row.toNat h)

def setWidth (s : Sheet) (v : Value) : Outcome Sheet := do
  let col := (← field v "column").toText
  let w ← (← field v "width").toFloat
  outline v
  pure (s.putWidth col w)

def apply (l : Layout) (s : Sheet) : Outcome Sheet := do
  let s ← l.mergeAll s
  let s ← setFreeze s l.freeze
  let s ← setTab s l.tab
  let s ← (← l.rows.elements).foldlM setHeight s
  (← l.columns.elements).foldlM setWidth s

end Layout

namespace Rebuild

variable (r : Rebuild) (hasTemplate : Bool)

/-- What an entry puts into its cell; nothing leaves the cell as it is. -/
def content (sheet : String) (e : Entry) : Outcome (Option Value) := do
  if e.isInput then
    let given := match e.cell with
      | .text a => if r.asRecorded then none else r.overrides[(CellName.mk sheet a)]?
      | _ => none
    pure (some (if e.included then given.getD e.value else .null))
  else if !r.formulas then pure (some .null)
  else if ← e.hasFormulaText then pure (some e.formula)
  else pure (if hasTemplate then none else some .null)

def dress (s : Sheet) (p : Position) (e : Entry) : Outcome Sheet := do
  match ← StyleText.read e.style with
  | none => pure s
  | some l =>
    let format := match l.format with
      | .text f => f
      | v => v.toText
    pure (s.restyle p fun _ => { l.style with numberFormat := format })

def place (name : String) (s : Sheet) (e : Entry) : Outcome Sheet := do
  let p ← e.position
  if s.isHidden p then pure s
  else match ← r.content hasTemplate name e with
    | none => pure s
    | some v =>
      let s ← s.put p v
      if hasTemplate then pure s else dress s p e

variable (b : Blueprint)

def addEmpty (w : Workbook) (name : String) : Outcome Workbook := do
  Workbook.checkTitle name
  let s : Sheet := { name }
  pure (w.append (← (b.layout? name).elim (pure s) fun l => l.apply s))

def emptyWorkbook : Outcome Workbook := b.order.foldlM (addEmpty b) {}

/-- Puts the entries of the sheet of a name into a sheet; without a template it is given its layout again. -/
def fill (name : String) (s : Sheet) : Outcome Sheet := do
  let s ← (b.sortedEntries name).foldlM (r.place hasTemplate name) s
  match b.layout? name with
  | some l => if hasTemplate then pure s else l.apply s
  | none => pure s

def fillIn (w : Workbook) (name : String) : Outcome Workbook :=
  match w.sheet? name with
  | some s => do pure (w.putSheet (← r.fill hasTemplate b name s))
  | none => do
    Workbook.checkTitle name
    pure ((w.addSheet name).putSheet (← r.fill hasTemplate b name { name := w.freeName name }))

def workbook (fs : Files) (b : Blueprint) : Outcome Workbook := do
  let hasTemplate := fs.isThere b.template
  let start ← if hasTemplate then fs.load b.template else emptyWorkbook b
  b.order.foldlM (r.fillIn hasTemplate b) start

def save (fs : Files) (b : Blueprint) (output : String) : Outcome Files := do
  fs.storeIn output (← r.workbook fs b)

end Rebuild

def makeInputs (fs : Files) (report output : String) : Outcome Files := do
  let r : Rebuild := { formulas := false, asRecorded := true }
  r.save fs (← readReport fs report) output

end Sheetwork.Model
