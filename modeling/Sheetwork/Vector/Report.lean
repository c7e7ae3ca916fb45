import Sheetwork.Vector.Group
import Sheetwork.Workbook.Survey
/-
  Vectors: the report on groups and on references that leave their sheet.
-/

/-! Where formulas reach beyond their own sheet, and which of them are outputs. -/

namespace Sheetwork.Vector

variable (cells : List FormulaCell)

/-- The formulas that name a workbook, by workbook in the order of the first mention. -/
def workbookUses : List (String × List FormulaCell) :=
  cells.foldl (fun acc c => (Formula.workbooksNamed c.formula).foldl (fun acc file => put acc file c) acc) []
where
  put : List (String × List FormulaCell) → String → FormulaCell → List (String × List FormulaCell)
    | [], file, c => [(file, [c])]
    | (f, cs) :: r, file, c =>
      if f = file then (f, Ordered.insert c cs) :: r else (f, cs) :: put r file c

structure Reach where
  cell : FormulaCell
  file : Option String
  sheet : String
  isRange : Bool

def Reach.kind (r : Reach) : String := if r.isRange then "range" else "cell"

/-- The references of formulas that reach beyond the formula's own sheet. -/
def reaches : List Reach :=
  cells.flatMap fun c => (Formula.mentions c.formula c.sheet).filterMap fun m =>
    if m.file.isSome || m.sheet ≠ c.sheet then some ⟨c, m.file, m.sheet, m.isRange⟩ else none

def acrossSheets (rs : List Reach) : List Reach := rs.filter fun r => r.file.isNone

def acrossWorkbooks (rs : List Reach) : List Reach := rs.filter fun r => r.file.isSome

def covers (m : Formula.Mention) (c : CellRef) : Bool :=
  m.sheet = c.sheet &&
    match m.last with
    | none => m.column = c.col && m.row = c.row
    | some e =>
      let n := Column.index c.col
      Column.name n = c.col && Column.index m.column ≤ n && n ≤ Column.index e.column &&
        m.row ≤ c.row && c.row ≤ e.rowNumber

/-- Formulas whose cells other formulas read, and the others, which are outputs. -/
def classify : List FormulaCell × List FormulaCell :=
  let ms := cells.flatMap fun c => Formula.mentions c.formula c.sheet
  cells.partition fun c => ms.any (covers · c.ref)

def summaryRows (s : Survey) (groups : List Group) (singles : List FormulaCell) (reaches : List Reach) :
    List (List Value) :=
  let row (m : String) (n : Nat) := [Value.text m, Value.ofNat n]
  [row "Total formula cells" s.formulas.length, row "Vectorised groups" groups.length,
    row "Formulas in vectorised groups" (groups.map (·.cells.length)).sum,
    row "Non-vectorised (individual) formulas" singles.length,
    row "Cross-sheet references" (acrossSheets reaches).length,
    row "External-file references" (acrossWorkbooks reaches).length,
    row "Distinct external files" (workbookUses s.formulas).length,
    row "Sheets in workbook" s.pages.length]

def groupRow (n : Nat) (g : Group) : List Value :=
  match g.cells, g.cells.getLast? with
  | first :: _, some last =>
    [.ofNat n, g.direction.name, first.sheet, first.address, last.address, .ofNat g.cells.length, first.formula]
  | _, _ => []

def reachRow (r : Reach) : List Value :=
  Value.texts ([r.cell.sheet, r.cell.address, r.cell.formula] ++ r.file.toList ++ [r.sheet, r.kind])

def sheetRow (s : Survey) (groups : List Group) (singles : List FormulaCell) (reaches : List Reach)
    (name : String) : List Value :=
  let here (cs : List FormulaCell) := Value.ofNat (cs.filter fun c => c.sheet = name).length
  [name, here s.formulas, here (groups.flatMap Group.cells), here singles,
    here ((acrossSheets reaches).map Reach.cell), here ((acrossWorkbooks reaches).map Reach.cell)]

def report (s : Survey) : Outcome Workbook := do
  let (groups, singles) := group s.formulas
  let reaches := reaches s.formulas
  let summary ← Sheet.ofRows "Summary" ["Metric", "Value"] (summaryRows s groups singles reaches) 15.0
  let summary := summary.putWidth "A" 40.0
  let grouped ← Sheet.ofRows "Vectorised Groups"
    ["Group #", "Direction", "Sheet", "Start Cell", "End Cell", "Cell Count", "Representative Formula"]
    (groups.zipIdx.map fun (g, i) => groupRow (i + 1) g) 22.0
  let sheets ← Sheet.ofRows "Cross-Sheet Refs" ["Source Sheet", "Cell", "Formula", "Target Sheet", "Ref Type"]
    ((acrossSheets reaches).map reachRow) 25.0
  let files ← Sheet.ofRows "External Refs"
    ["Source Sheet", "Cell", "Formula", "External File", "External Sheet", "Ref Type"]
    ((acrossWorkbooks reaches).map reachRow) 25.0
  let perSheet ← Sheet.ofRows "Per-Sheet Breakdown"
    ["Sheet", "Total Formulas", "Vectorised", "Individual", "Cross-Sheet Refs Out", "External Refs"]
    (s.pages.map fun p => sheetRow s groups singles reaches p.name) 22.0
  pure { sheets := [summary, grouped, sheets, files, perSheet] }

end Sheetwork.Vector
