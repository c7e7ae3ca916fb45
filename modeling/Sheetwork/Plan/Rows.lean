import Sheetwork.Plan.Report
/-
  Plans: the rows of a report as they are read back, whatever was changed in it by hand; and the inputs in their
  places. The workbook of inputs has the sheets of the report, and on them the inputs that are to be used, each where
  it was and as it looked.
-/

namespace Sheetwork.Plan

variable (r : Record)

/-- Rows that are to be used: a flag of false or zero leaves a row out. -/
def isIncluded : Bool := !(r.get "IncludeFlag" == .int 0)

def hasKind (k : Kind) (r : Record) : Bool := r.get "Type" == .text k.name

def isInput : Bool := hasKind .input r && isIncluded r

def isCalculated : Bool := (hasKind .calculation r || hasKind .output r) && isIncluded r

def wholeOf (name : String) : Outcome Int := do (← r.need name).toInt

/-- The cell at a row and a column, which count from one; the rows of a sheet are limited. -/
def positionOf (row col : Int) : Outcome Position :=
  if row < 1 || col < 1 || (Address.maxRow : Int) < row then .error .badValue
  else .ok ⟨row.toNat, col.toNat⟩

def readSheets (fs : Files) (report : String) : Outcome (List (String × List Record)) := do
  let w := (← fs.load report).dataOnly
  pure ((w.sheets.filter (·.name ≠ metadataSheet)).map fun s => (s.name, s.records))

/-- The defined names that a sheet lists; of two definitions the later counts. -/
def readNames (s : Sheet) : List (String × String) :=
  let rows := (List.range (s.maxRow - 1)).map fun i => (s.value ⟨i + 2, 1⟩, s.value ⟨i + 2, 2⟩)
  let pairs := (rows.filter fun (n, ref) => n.truthy && ref.truthy).map fun (n, ref) => (n.toText, ref.toText)
  (pairs.map (·.1)).eraseDups.filterMap fun n => pairs.reverse.find? (·.1 = n)

structure Listing where
  sheets : List (String × List Record)
  names : List (String × String)

def readListing (fs : Files) (report : String) : Outcome Listing := do
  let w := (← fs.load report).dataOnly
  let isNames (s : Sheet) := s.name = namesSheet
  pure { sheets := (← readSheets fs report).filter fun (n, _) => n ≠ namesSheet
         names := (w.sheets.filter isNames).flatMap readNames }

def putInput (s : Sheet) (r : Record) : Outcome Sheet := do
  let row ← wholeOf r "Row"
  let p ← positionOf row (← wholeOf r "Col")
  let s ← s.put p ((r.get? "Value").getD (.text ""))
  let style ← (Format.ofRow r).apply (s.cell p).style
  pure (s.restyle p fun _ => style)

def inputsWorkbook (sheets : List (String × List Record)) : Outcome (Workbook × List (String × Nat)) :=
  sheets.foldlM (fun (w, counts) (name, rows) => do
    let used := rows.filter isInput
    let s ← used.foldlM putInput { name := safeSheetName name }
    pure (w.append s, counts ++ [(name, used.length)])) (({} : Workbook), [])

def inputsName : String := "unstructured_inputs.xlsx"

def makeInputs (fs : Files) (report folder : String) : Outcome Made := do
  let fs := fs.makeFolder folder
  let (w, counts) ← inputsWorkbook (← readSheets fs report)
  let path := Path.join folder inputsName
  let said := counts.map fun (name, n) => "  " ++ name ++ ": " ++ Text.ofNat n ++ " input cells written"
  pure ⟨← fs.store path w, path, said ++ ["  → " ++ path]⟩

end Sheetwork.Plan
