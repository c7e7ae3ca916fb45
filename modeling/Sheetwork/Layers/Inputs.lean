import Sheetwork.Layers.Report
/-
  Layers: the inputs of a report in their places. Every input cell of the report is written with its value and look to
  the cell it came from.
-/

/-! The look of a cell from the columns of a report row. A look that a row does not
give stays as it is. -/

namespace Sheetwork.Layers

namespace Look

/-- The digits of a written colour, fully opaque if it has six; none if their number is wrong. -/
def colorDigits? (v : Value) : Outcome (Option Color) := do
  if !v.truthy then pure none
  else
    let s ← Fault.noProperty.ifNone v.text?
    let s := Text.replace "#" "" s
    let s := if s.length = 6 then "FF" ++ s else s
    if s.length = 8 then some <$> Color.ofDigits s else pure none

def font? (r : Record) : Outcome (Option Font) := do
  let bold := (r.get "FontBold").truthy
  let italic := (r.get "FontItalic").truthy
  let size := r.get "FontSize"
  let size ← if size.truthy then some <$> size.toSize else pure none
  let color ← colorDigits? (r.get "FontColor")
  if bold || italic || size.isSome || color.isSome then pure (some { bold, italic, size, color })
  else pure none

def fill? (r : Record) : Outcome (Option Fill) := do
  pure ((← colorDigits? (r.get "FillColor")).map Fill.solid)

def alignment (name : String) : Option Bool → Outcome Alignment := Alignment.ofNames (some name) none

def painted (r : Record) (st : Style) : Outcome Style := do
  let st := match ← font? r with
    | some font => { st with font }
    | none => st
  pure (match ← fill? r with
    | some fill => { st with fill }
    | none => st)

end Look

namespace Inputs

/-- The rows of a report sheet that give an input to be used. A report sheet has a first row. -/
def inputRows (s : Sheet) : Outcome (List Record) := do
  if s.isEmpty then .error .outOfRange
  else s.records.filterM fun r => do
    let type ← r.need "Type"
    let flag ← r.need "IncludeFlag"
    pure (type == .text "Input" && flag.truthy)

def before (mark s : String) : String := ((Text.cut? mark s).map (·.1)).getD s

def rowNumber (v : Value) : Outcome Int := Value.toInt (.text (before "-" v.toText))

def columnLetters (v : Value) : String := before "[-" v.toText

def fields : List String :=
  ["RowNum", "ColNum", "Cell", "Value", "NumberFormat", "FontBold", "FontItalic", "FontSize",
    "FontColor", "FillColor", "Alignment", "WrapText"]

def write (s : Sheet) (r : Record) : Outcome Sheet := do
  let row ← rowNumber (r.get "RowNum")
  let p ← Address.cell (columnLetters (r.get "ColNum") ++ Text.ofInt row)
  let s ← s.put p (r.get "Value")
  let st := (s.cell p).style
  let st := if (r.get "NumberFormat").truthy then
    { st with numberFormat := (r.get "NumberFormat").toText } else st
  let st ← Look.painted r st
  let st ← if (r.get "Alignment").truthy then do
      let align ← Look.alignment (r.get "Alignment").toText (some (r.get "WrapText").truthy)
      pure { st with align }
    else pure st
  pure (s.restyle p fun _ => st)

def ofReport (report : Workbook) : Outcome (List (String × List Record)) := do
  let parts ← (Report.sheets report).mapM fun s => do
    let rows ← inputRows s
    for r in rows do
      for f in fields do
        let _ ← r.need f
    pure (s.name, rows)
  pure (parts.filter fun p => !p.2.isEmpty)

def workbook (parts : List (String × List Record)) : Outcome Workbook :=
  parts.foldlM (fun (w : Workbook) (name, rows) => do
    Workbook.checkTitle name
    let s ← rows.foldlM write { name }
    pure (w.append s)) {}

end Inputs

def makeInputs (fs : Files) (report target : String) : Outcome Files := do
  let w ← openWorkbook fs report
  fs.storeIn target (← Inputs.workbook (← Inputs.ofReport w.dataOnly))

end Sheetwork.Layers
