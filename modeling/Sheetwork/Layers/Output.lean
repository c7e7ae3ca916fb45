import Sheetwork.Layers.Engine
import Sheetwork.Layers.Inputs
/-
  Layers: the output workbook. Every cell of the report is written: a formula cell with its formula, an input with its
  value, both with the look of the report; a group row stands for each of its cells.
-/

namespace Sheetwork.Layers

open Text Text.Pattern

namespace Output

def expand (first last : String) (pattern : Value) (direction : Value) : Outcome (List (String × String)) := do
  match (cellForm 1).begin? first, (cellForm 1).begin? last with
  | some a, some b =>
    let row := natOfDigits (a.group 2).toList
    let lastRow := natOfDigits (b.group 2).toList
    let col ← Address.columnNumber (a.group 1)
    let lastCol ← Address.columnNumber (b.group 1)
    let formula (mark new : String) := do
      if pattern.truthy then
        let s ← Fault.noProperty.ifNone pattern.text?
        pure (some (stripCharsLeft "'" (replace mark new s)))
      else pure none
    let cells : List (String × Outcome (Option String)) :=
      if direction == .text "horizontal" then
        (List.range (lastCol + 1 - col)).map fun (i : Nat) =>
          let c := Column.name (col + i : Nat)
          (c ++ ofNat row, formula "\x7bcol\x7d" c)
      else if direction == .text "vertical" then
        (List.range (lastRow + 1 - row)).map fun (i : Nat) =>
          (a.group 1 ++ ofNat (row + i), formula "\x7brow\x7d" (ofNat (row + i)))
      else []
    let found ← cells.mapM fun (c, f) => do pure ((← f).map (c, ·))
    pure (found.filterMap id)
  | _, _ => pure []

/-- What the report says of a cell: its row, and the formula if a group gives it. -/
structure Entry where
  place : Place
  row : Record
  formula : Value

def fields : List String :=
  ["Type", "NumberFormat", "FontBold", "FontItalic", "FontSize", "FontColor", "FillColor", "Alignment", "WrapText"]

variable (strict : Bool)

def needAll (names : List String) (r : Record) : Outcome Unit := do
  if strict then
    for n in names do
      let _ ← r.need n

def entriesOf (sheet : String) (r : Record) : Outcome (List Entry) := do
  let cell ← r.need "Cell"
  if !cell.truthy then pure []
  else if contains ":" cell.toText then do
    needAll strict ["PatternFormula", "GroupDirection"] r
    match split ":" (← Fault.noProperty.ifNone cell.text?) with
    | [first, last] =>
      let cells ← expand first last (r.get "PatternFormula") (r.get "GroupDirection")
      needAll strict fields r
      pure (cells.map fun (c, f) => ⟨⟨sheet, c⟩, r, f⟩)
    | _ => .error .badValue
  else do
    needAll strict ("Formula" :: fields) r
    pure [⟨⟨sheet, cell.toText⟩, r, r.get "Formula"⟩]

def entries (report : Workbook) : Outcome (List Entry) := do
  let found ← (Report.sheets report).mapM fun s => do
    let es ← s.records.mapM (entriesOf strict s.name)
    pure (es.flatten.foldl (fun acc e => putBy Entry.place e acc) [])
  pure found.flatten

def content (e : Entry) (value : Value) : Outcome Value := do
  let type := e.row.get "Type"
  if e.formula.truthy && (type == .text "Calculation" || type == .text "Output") then
    let f := stripCharsLeft "'" (← Fault.noProperty.ifNone e.formula.text?)
    if startsWith "=" f then pure (.text f)
    else pure (if value.truthy then value else .text f)
  else pure value

def write (value? : Place → Option Value) (s : Sheet) (e : Entry) : Outcome Sheet := do
  let p ← Address.cell e.place.address
  let s ← s.put p (← content e ((value? e.place).getD .null))
  let st := (s.cell p).style
  let format := e.row.get "NumberFormat"
  let st := if format.truthy && !(format == .text "General") then
    { st with numberFormat := format.toText } else st
  let st ← Look.painted e.row st
  let align := e.row.get "Alignment"
  let wrap := e.row.get "WrapText"
  let st ← if align.truthy || wrap.truthy then do
      let align ← Look.alignment (if align.truthy then align.toText else "general")
        (if wrap.isNull then none else some wrap.truthy)
      pure { st with align }
    else pure st
  pure (s.restyle p fun _ => st)

def workbook (value? : Place → Option Value) (es : List Entry) : Outcome Workbook :=
  (bucketBy (fun (e : Entry) => e.place.sheet) es).foldlM (fun (w : Workbook) (name, es) => do
    Workbook.checkTitle name
    let s ← es.foldlM (write value?) { name }
    pure (w.append s)) {}

/-! Values from tables -/

abbrev Values := List (Place × Value)

def value? (vs : Values) (p : Place) : Option Value := (vs.find? (·.1 = p)).map (·.2)

def configValues (s : Sheet) (vs : Values) : Outcome Values :=
  s.records.foldlM (fun vs r => do
    let sheet ← r.need "SourceSheet"
    let cell ← r.need "SourceCell"
    let value ← r.need "Value"
    pure (match sheet, cell with
      | .text a, .text b => if a = "" || b = "" then vs else putBy Prod.fst (⟨a, b⟩, value) vs
      | _, _ => vs)) vs

/-- Rows become columns; short rows are filled with nothing. -/
def turned (rows : List (List Value)) : List (List Value) :=
  let data := rows.map (·.drop 1)
  match data with
  | first :: _ =>
    if first.isEmpty then rows
    else (List.range first.length).map fun i => data.map fun row => (row[i]?).getD .null
  | [] => rows

/-- Reads a table back to the cells below and to the right of the corner of its range. -/
def tableValues (s : Sheet) (source : Value) (range : Value) (isTurned : Bool) (vs : Values) : Outcome Values := do
  let range ← Fault.wrongKind.ifNone range.text?
  match areaForm.begin? range with
  | none => pure vs
  | some m =>
    let rows := (s.records.map Record.values).filter fun row => row.any fun v => !v.isNull
    if rows.isEmpty then pure vs
    else
      let rows := if isTurned then turned rows else rows
      let a ← Address.areaOf m
      let sheet := source.toText
      let cells := rows.zipIdx.flatMap fun (vs, i) => vs.zipIdx.filterMap fun (v, j) =>
        let p : Position := ⟨a.minRow + i + 1, a.minCol + j + 1⟩
        if a.maxCol < p.col || a.maxRow < p.row || v.isNull then none else some (Place.mk sheet p.address, v)
      pure (cells.foldl (fun vs e => putBy Prod.fst e vs) vs)

def structuredValues (w : Workbook) : Outcome Values := do
  match w.sheet? "Index" with
  | none => pure []
  | some index =>
    let rows := index.records.filter fun r => (r.values.head?.getD .null).truthy
    let rows ← rows.mapM fun r => do
      pure (← r.need "StructuredTable", ← r.need "SourceSheet", ← r.need "CellRange",
        ← r.need "TableType", ← r.need "Transposed")
    let vs ← match w.sheet? "Config" with
      | some s => configValues s []
      | none => pure []
    rows.foldlM (fun vs (table, source, range, type, isTurned) => do
      if type == .text "Scalar" then pure vs
      else match table.text?.bind w.sheet? with
        | some s => tableValues s source range isTurned.truthy vs
        | none => pure vs) vs

end Output

/-- Computes the values of a report and writes the output workbook; the values are returned too. -/
def calculate (fs : Files) (inputs report target : String) : Outcome (Files × Engine.Values) := do
  let w ← fs.load inputs
  let r ← fs.load report
  let vs ← Engine.values w.dataOnly r.dataOnly
  let es ← Output.entries true r.dataOnly
  pure (← fs.storeIn target (← Output.workbook (vs[·]?) es), vs)

def calculateStructured (fs : Files) (inputs report target : String) : Outcome Files := do
  let w ← fs.load inputs
  let vs ← Output.structuredValues w.dataOnly
  let r ← fs.load report
  let es ← Output.entries false r.dataOnly
  fs.storeIn target (← Output.workbook (Output.value? vs) es)

end Sheetwork.Layers
