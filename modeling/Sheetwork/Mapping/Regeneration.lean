import Sheetwork.Json.Reader
import Sheetwork.Mapping.Row
/-
  Mapping: from a report back to a workbook. Rows that are included are written with their looks, groups cell by cell
  with shifted formulas; then merged areas, widths and heights follow. An input template lists the included inputs,
  and its values take the place of the recorded ones.
-/

namespace Sheetwork.Mapping

def shiftValue (formula : Value) (rows cols : Int) : Outcome Value :=
  if rows = 0 && cols = 0 then .ok formula
  else match formula with
    | .text f => .ok (.text (Formula.shift f "" rows cols))
    | _ => .error .noProperty

def expandGroup (r : Record) : Outcome (List (String × Value)) := do
  let cell := (← r.need "Cell").toText
  let formula ← r.need "Formula"
  let direction ← r.need "GroupDirection"
  let _ ← r.need "Sheet"
  match Text.Pattern.areaForm.begin? cell with
  | none => pure [(cell, formula)]
  | some m =>
    let number := fun n => ((Number.int? (m.group n)).getD 0).toNat
    let row := number 2
    if direction == .text "vertical" then
      (List.range (number 4 + 1 - row)).mapM fun (i : Nat) => do
        pure (m.group 1 ++ Text.ofNat (row + i), ← shiftValue formula i 0)
    else
      let first := Column.index (m.group 1)
      (List.range (Column.index (m.group 3) + 1 - first)).mapM fun (i : Nat) => do
        pure (Column.name (first + i) ++ Text.ofNat row, ← shiftValue formula 0 i)

variable (v : Value)

def isFullColor : Bool :=
  v.truthy && Color.isFull (if Text.endsWith "\n" v.toText then Text.dropLast 1 v.toText else v.toText)

def colorOf? : Outcome (Option Color) :=
  if isFullColor v then some <$> Color.ofDigits v.toText else .ok none

def alignName (names : List String) (v : Value) : Outcome (Option String) :=
  if !v.truthy then .ok none
  else match v with
    | .text s => Alignment.checked names (some s)
    | _ => .error .badValue

def dress (r : Record) (st : Style) : Outcome Style := do
  let st := match r.get "NumberFormat" with
    | .text s => if s.isEmpty then st else { st with numberFormat := s }
    | _ => st
  let size := r.get "FontSize"
  let size ← if size.truthy then some <$> size.toSize else pure none
  let bold := (r.get "FontBold").truthy
  let italic := (r.get "FontItalic").truthy
  let color ← colorOf? (r.get "FontColor")
  let st := if bold || italic || size.isSome || color.isSome then
      { st with font := { bold, italic, size, color } }
    else st
  let st := match ← colorOf? (r.get "FillColor") with
    | some c => { st with fill := Fill.solid c }
    | none => st
  let horizontal ← alignName Alignment.horizontalNames (r.get "HorizAlign")
  let vertical ← alignName Alignment.verticalNames (r.get "VertAlign")
  let wrap := if (r.get "WrapText").truthy then some true else none
  pure (if (r.get "HorizAlign").truthy || (r.get "VertAlign").truthy || wrap.isSome then
      { st with align := { horizontal, vertical, wrap } }
    else st)

def place (s : Sheet) (r : Record) (address : String) (v : Value) : Outcome Sheet := do
  match ← Address.target address with
  | .several => .error .noProperty
  | .cell p =>
    let s ← s.put p v
    let style ← dress r (s.cell p).style
    pure (s.restyle p fun _ => style)

/-- The values of an input template by address, for each sheet. -/
abbrev Overrides := List (String × List (String × Value))

variable (w : Workbook)

def overridesOf : Overrides :=
  w.sheets.map fun s =>
    let fields := s.headings
    let last (name : String) (other : Nat) :=
      (((fields.zipIdx).reverse.find? fun (k, _) => k == .text name).map (·.2)).getD other
    let cell := last "Cell" 0
    let value := last "Value" 1
    (s.name, (List.range (s.maxRow - 1)).filterMap fun i =>
      let a := s.value ⟨i + 2, cell + 1⟩
      if a.isNull then none else some (a.toText, s.value ⟨i + 2, value + 1⟩))

variable (o : Overrides)

/-- The value that a template gives for an address; the last row of an address counts. -/
def Overrides.find? (sheet address : String) : Option Value :=
  ((o.reverse.find? (·.1 = sheet)).bind fun (_, es) =>
    (es.reverse.find? (·.1 = address)).map (·.2)).filter fun v => !v.isNull

def placeRecord (name : String) (s : Sheet) (r : Record) : Outcome Sheet := do
  let cell := r.get "Cell"
  let address := if cell.truthy then cell.toText else ""
  if r.get "Type" == .text CellType.input.name then
    place s r address ((o.find? name address).getD (r.get "Value"))
  else if (r.get "GroupID").truthy then (← expandGroup r).foldlM (fun s (a, f) => place s r a f) s
  else if (r.get "Formula").isNull then pure s
  else place s r address (r.get "Formula")

structure Layout where
  sheet : Value
  merged : List String
  (widths heights : Value)

def nonempty (other : String) : Value := if v.truthy then v else .text other

def jsonOf : Outcome Value :=
  match nonempty v "\x7b\x7d" with
  | .text s => Json.read s
  | _ => .error .wrongKind

def layoutOf (r : Record) : Outcome Layout := do
  let sheet ← r.need "SheetName"
  let field (name : String) (i : Nat) := match r.get? name with
    | some v => Except.ok v
    | none => Fault.outOfRange.ifNone r.values[i]?
  let merged ← match nonempty (← field "MergedCells" 1) "" with
    | .text s => pure (((Text.split ";" s).map Text.strip).filter fun s => !s.isEmpty)
    | _ => .error .noProperty
  let widths ← jsonOf (← field "ColWidths" 2)
  let heights ← jsonOf (← field "RowHeights" 3)
  pure ⟨sheet, merged, widths, heights⟩

def entriesOf : Value → Outcome (List (Value × Value))
  | .keyed es => .ok es
  | _ => .error .noProperty

/-- Merged areas, widths and heights; what makes no sense is passed over. -/
def layOut (s : Sheet) (l : Layout) : Outcome Sheet := do
  let s := (l.merged.filterMap Address.area?).foldl Sheet.merge s
  let s := (← entriesOf l.widths).foldl (fun s (k, w) =>
    match w.toFloat with
    | .ok w => s.putWidth k.toText w
    | .error _ => s) s
  pure ((← entriesOf l.heights).foldl (fun s (k, h) =>
    match Number.int? k.toText, h.toFloat with
    | some k, .ok h => s.putHeight k.toNat h
    | _, _ => s) s)

def regenerateSheet (layouts : List Layout) (s : Sheet) (name : String) : Outcome Sheet := do
  let rows := s.records.filter fun r => (r.get "IncludeFlag").truthy
  let out ← rows.foldlM (placeRecord o s.name) { name }
  match layouts.reverse.find? fun l => l.sheet == .text s.name with
  | some l => layOut out l
  | none => pure out

def rowSheets : List Sheet := w.sheets.filter (·.name ≠ metadataName)

def regenerate (template : Option Workbook) : Outcome Workbook := do
  let layouts ← match w.sheet? metadataName with
    | some s => s.records.mapM layoutOf
    | none => pure []
  let o := (template.map overridesOf).getD []
  let out ← (rowSheets w).foldlM (fun (out : Workbook) s => do
    let sheet ← regenerateSheet o layouts s s.name
    pure (out.append sheet)) fresh
  pure (dropFirst out)

def template : Outcome Workbook := do
  let out ← (rowSheets w).foldlM (fun (out : Workbook) s => do
    let rows := s.records.filter fun r => r.get "Type" == .text CellType.input.name && (r.get "IncludeFlag").truthy
    let sheet ← ({ name := s.name } : Sheet).writeRow 1 ["Cell", "Value"]
    let sheet ← sheet.writeRows 2 (rows.map fun r => [r.get "Cell", r.get "Value"])
    pure (out.append sheet)) fresh
  pure (dropFirst out)

/-! The inputs of a report as vectors and scalars. A vector is a run of two or more
inputs in neighbouring columns of a row; all other inputs are scalars. -/

structure Input where
  col : String
  (row colNumber : Int)
  (value format : Value)
  cell : String

def inputPattern : Text.Pattern := .cellForm 1 ++ .finish

/-- The inputs on a sheet of rows; a sheet without a type field has none. -/
def inputsOf (s : Sheet) : Outcome (Option (List Input)) := do
  let fields := s.headings
  if !fields.contains (.text "Type") then pure none
  else
    let index (name : String) := Fault.badValue.ifNone (fields.findIdx? (· == .text name))
    let type ← index "Type"
    let cell ← index "Cell"
    let value ← index "Value"
    let format := fields.findIdx? (· == .text "NumberFormat")
    let rows := (List.range (s.maxRow - 1)).filterMap fun i =>
      let at_ (j : Nat) := s.value ⟨i + 2, j + 1⟩
      let address := if (at_ cell).truthy then (at_ cell).toText else ""
      if at_ type == .text CellType.input.name then
        (inputPattern.begin? address).map fun m =>
          { col := m.group 1, row := (Number.int? (m.group 2)).getD 0
            colNumber := Column.number (m.group 1), value := at_ value
            format := format.elim .null at_, cell := address }
      else none
    pure (some rows)

variable (inputs : List Input)

def inputRows : List (List Input) :=
  let rows := (bucketBy Input.row inputs).mergeSort fun a b => a.1 ≤ b.1
  rows.map fun (_, cells) => cells.mergeSort fun a b => a.colNumber ≤ b.colNumber

def inputRuns : List (List Input) :=
  (inputRows inputs).flatMap (runs fun a b => b.colNumber = a.colNumber + 1)

def splitInputs : List (List Input) × List Input :=
  let found := inputRuns inputs
  (found.filter fun r => 2 ≤ r.length, (found.filter fun r => r.length < 2).flatten)

/-- The label at the head of a vector, if its first value is a text, and the rest. -/
def splitLabel (vector : List Input) : Option String × List Input :=
  match vector with
  | [] => (none, [])
  | first :: rest =>
    match first.value with
    | .text s => if (Text.strip s).isEmpty then (none, vector) else (some (Text.strip s), rest)
    | _ => (none, vector)

open Text.Pattern in
def yearLabel : Text.Pattern := (lit "FY").opt ++ times 4 digit ++ upperLetter.many

def isYear : Value → Outcome Bool
  | .int n => .ok (1900 ≤ n && n ≤ 2100)
  | .bool _ => .ok false
  | .float x => do
    let n ← Value.intOfFloat x
    pure (x == Number.ofInt n && 1900 ≤ n && n ≤ 2100)
  | .text s => .ok (yearLabel.full? (Text.strip s)).isSome
  | _ => .ok false

/-- Headers by column number; the last one of a column counts. -/
abbrev Headers := List (Int × String)

def Headers.put (k : Int) (v : String) : Headers → Headers
  | [] => [(k, v)]
  | (k', v') :: r => if k = k' then (k, v) :: r else (k', v') :: Headers.put k v r

/-- Whether all values stand for years; the first that does not decides. -/
def allYears : List Input → Outcome Bool
  | [] => .ok true
  | i :: r => do if ← isYear i.value then allYears r else pure false

def Headers.putAll (h : Headers) (is : List Input) : Headers := is.foldl (fun h i => h.put i.colNumber i.value.toText) h

/-- Takes a vector out if it is a row of years: in the first six rows, or with a label. -/
def takeHeader : Headers × List (List Input) → List Input → Outcome (Headers × List (List Input))
  | (headers, rest), vector => do
    let (label, data) := splitLabel vector
    match vector, data with
    | first :: _, _ :: _ =>
      let years ← allYears data
      if years && (first.row ≤ 6 || label.isSome) then pure (headers.putAll data, rest)
      else pure (headers, rest ++ [vector])
    | _, _ => pure (headers, rest ++ [vector])

def takeHeaders (vectors : List (List Input)) : Outcome (Headers × List (List Input)) :=
  vectors.foldlM takeHeader ([], [])

end Sheetwork.Mapping
