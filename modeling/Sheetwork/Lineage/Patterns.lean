import Sheetwork.Vector.Group
import Sheetwork.Workbook.Basic
/-
  Lineage: the formula patterns of a sheet. Formulas of a column with one pattern are counted together with the first
  and the last of their rows.
-/

namespace Sheetwork.Lineage

structure Placed where
  at_ : Position
  formula : String
  deriving DecidableEq, Inhabited

def Placed.pattern (f : Placed) : String := Formula.rowPattern f.formula f.at_.row

structure Extent where
  (firstRow lastRow count : Nat)
  deriving DecidableEq

namespace Extent

def ofRows (rows : List Nat) : Extent := ⟨rows.foldl min (rows.headD 0), rows.foldl max 0, rows.length⟩

def range (e : Extent) : Value := .list [.ofNat e.firstRow, .ofNat e.lastRow]

def document (e : Extent) : List (String × Value) := [("row_range", e.range), ("count", .ofNat e.count)]

def row (e : Extent) : List Value := [.text e.range.toText, .ofNat e.count]

end Extent

structure ColumnPattern where
  pattern : String
  example_ : Placed
  extent : Extent
  deriving DecidableEq

structure ColumnPatterns where
  (column header : String)
  patterns : List ColumnPattern

structure SheetPatterns where
  sheet : String
  headers : List (String × String)
  columns : List ColumnPatterns
  (total unique : Nat)

def formulaOf? : Value → Option String
  | .text s => if Text.startsWith "=" s then some s else none
  | _ => none

variable (s : Sheet)

def formulas : List Placed := s.entries.filterMap fun (p, c) => (formulaOf? c.value).map fun f => ⟨p, f⟩

def canHead (v : Value) : Bool := !v.isNumber && (formulaOf? v).isNone

/-- The row of headers: the first of five rows with values of which none is a number
or a formula. -/
def headerRow? : Option Nat :=
  let rows := s.entries.filter fun (_, c) => !c.value.isNull
  ((List.range (min 5 s.maxRow)).map (· + 1)).find? fun r =>
    let row := rows.filter fun (p, _) => p.row = r
    !row.isEmpty && row.all fun (_, c) => canHead c.value

def headers : List (String × String) :=
  match headerRow? s with
  | none => []
  | some r => s.entries.filterMap fun (p, c) =>
    if p.row = r && !c.value.isNull then some (p.colName, c.value.toText) else none

def headerOf (hs : List (String × String)) (col : String) : String := ((hs.find? (·.1 = col)).map (·.2)).getD ""

def columnLe (a b : String) : Bool :=
  ((compare a.length b.length).then (if a < b then .lt else if a = b then .eq else .gt)).isLE

def patternOf (fs : List Placed) (pattern : String) : ColumnPattern :=
  ⟨pattern, fs.headD default, .ofRows (fs.map (·.at_.row))⟩

def columnPatterns (fs : List Placed) : List ColumnPattern :=
  ((bucketBy Placed.pattern fs).map fun (k, fs) => patternOf fs k).mergeSort fun a b => a.extent.firstRow ≤ b.extent.firstRow

def sheetPatterns : SheetPatterns :=
  let fs := formulas s
  let hs := headers s
  let columns := (bucketBy (fun f => f.at_.colName) fs).mergeSort fun a b => columnLe a.1 b.1
  let columns := columns.map fun (col, fs) => (⟨col, headerOf hs col, columnPatterns fs⟩ : ColumnPatterns)
  ⟨s.name, hs, columns, fs.length, (columns.map (·.patterns.length)).sum⟩

def workbookPatterns (w : Workbook) : List SheetPatterns := w.sheets.map sheetPatterns

/-! Documents -/

def ColumnPattern.entries (p : ColumnPattern) : List (String × Value) :=
  ("pattern", p.pattern) :: ("example_cell", p.example_.at_.address) :: ("example_formula", p.example_.formula) ::
    p.extent.document

def ColumnPattern.document (p : ColumnPattern) : Value := .record p.entries

def ColumnPatterns.document (c : ColumnPatterns) : Value :=
  .record [("column", c.column), ("header", c.header), ("patterns", .list (c.patterns.map ColumnPattern.document))]

def SheetPatterns.document (s : SheetPatterns) : Value :=
  .record [("headers", .record (s.headers.map fun (k, v) => (k, v))),
    ("columns", .list (s.columns.map ColumnPatterns.document)),
    ("total_formula_cells", .ofNat s.total), ("unique_patterns", .ofNat s.unique),
    ("sheet_name", s.sheet)]

def patternsDocument (path : String) (w : Workbook) : Value :=
  .record [("file", path), ("sheets", .list ((workbookPatterns w).map SheetPatterns.document))]

end Sheetwork.Lineage

/-! The cells that a formula names, each once: first those of other workbooks, then
those of named sheets, then those of the formula's own sheet. Texts in quotes count like any
other, and of a range its corners count. -/

namespace Sheetwork.Lineage

open Formula Text Pattern

/-- A cell with its column and its row as groups, and no name right before it. -/
def ownPattern : Pattern :=
  behind false (one fun c => isAsciiLetter c || c = '_') ++ opt (chr '$') ++ cap 1 (between 1 3 upperLetter) ++
    opt (chr '$') ++ cap 2 (plus digit)

/-- Another workbook and its sheet stand together, divided by a bar. -/
def cellOf (sheet : String) (t : Target) : CellRef :=
  ⟨(t.file.elim "" (· ++ "|")) ++ t.sheet.getD sheet, t.at_.column, t.at_.rowNumber⟩

def targets (formula sheet : String) : List CellRef :=
  let s := body formula
  let clear (taken : List (Nat × Nat × Target)) (m : Nat × Nat × Target) :=
    !taken.any fun t => overlaps (m.1, m.2.1) (t.1, t.2.1)
  let files := finds MentionKind.workbookCell.here? 0 0 s
  let named := files ++ (finds MentionKind.sheetCell.here? 0 0 s).filter (clear files)
  let own := (ownPattern.all (String.ofList s)).map fun m =>
    (m.start, m.stop, (⟨none, none, ⟨false, (m.group 1).toList, false, (m.group 2).toList⟩, none⟩ : Target))
  let own := own.filter fun m => clear named m && !nameBefore s m.1
  ((named ++ own).map fun m => cellOf sheet m.2.2).eraseDups

end Sheetwork.Lineage
