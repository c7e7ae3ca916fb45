import Sheetwork.Text.Template
import Sheetwork.Vector.Group
/-
  Vectors: script code of groups and single formulas. A script keeps its values in a store keyed by sheet, column and
  row. The variables of an expression become reads of the store, the longest names first; in the loop of a group the
  free coordinates become offsets of the loop variable.
-/

namespace Sheetwork.Vector

open Text
open Sheetwork.Text (quoted)

def offset (var : String) (n : Int) : String :=
  if n = 0 then var
  else if 0 < n then var ++ " + " ++ ofInt n
  else var ++ " - " ++ ofInt (-n)

def rowOffset (var : String) (n : Int) : String := offset var n

def colOffset (var : String) (n : Int) : String := "_cl(" ++ offset var n ++ ")"

/-- Consecutive numbers as a span, others one by one. -/
def compactNumbers (ns : List Int) : String :=
  match ns.head?, ns.getLast? with
  | some a, some b =>
    if 2 ≤ ns.length && ns = (List.range (b + 1 - a).toNat).map (fun (i : Nat) => a + i) then
      "range(" ++ ofInt a ++ ", " ++ ofInt (b + 1) ++ ")"
    else "[" ++ join ", " (ns.map ofInt) ++ "]"
  | _, _ => "[]"

/-- A read of one cell from the store; the coordinates are expressions. -/
def cellRead (sheet col row : String) : String := "c.get((" ++ quoted sheet ++ ", " ++ col ++ ", " ++ row ++ "))"

def rangeRead (sheet col row endCol endRow : String) : String :=
  "_rng(c, " ++ quoted sheet ++ ", " ++ col ++ ", " ++ row ++ ", " ++ endCol ++ ", " ++ endRow ++ ")"

def tableRead (t : Table) (col : String) : String :=
  "[c.get((" ++ quoted t.sheet ++ ", " ++ quoted col ++ ", _tr)) for _tr in range(" ++
    ofNat t.firstRow ++ ", " ++ ofNat (t.lastRow + 1) ++ ")]"

def rowText (n : Nat) : String := ofNat n

/-- A coordinate as an expression writes it: as it is, or as an offset of the loop variable. -/
inductive LoopCoord (α : Type) where
  | fixed (a : α)
  | free (offset : Int)
  deriving DecidableEq

namespace LoopCoord

def ofMark {α : Type} (isFixed : Bool) (a : α) (offset : Int) : LoopCoord α := if isFixed then fixed a else free offset

def colText : LoopCoord String → String
  | fixed c => quoted c
  | free k => colOffset "_ci" k

def rowText : LoopCoord Nat → String
  | fixed r => Vector.rowText r
  | free k => rowOffset "_r" k

end LoopCoord

/-- Which coordinates follow the loop variable. -/
structure Placing where
  col : CellRef → LoopCoord String
  row : CellRef → LoopCoord Nat
  rangeCol : RangeRef → LoopCoord String
  rangeRow : RangeRef → LoopCoord Nat
  endCol : RangeRef → LoopCoord String
  endRow : RangeRef → LoopCoord Nat

/-- Nothing follows the loop variable. -/
def ownPlacing : Placing where
  col c := .fixed c.col
  row c := .fixed c.row
  rangeCol r := .fixed r.col
  rangeRow r := .fixed r.row
  endCol r := .fixed r.endCol
  endRow r := .fixed r.endRow

variable (ms : List Formula.Mention)

def findCell? (c : CellRef) : Option Formula.Mention :=
  ms.find? fun m => !m.isRange && m.sheet = c.sheet && m.column = c.col && m.row = c.row

def findRange? (r : RangeRef) : Option Formula.Mention :=
  ms.find? fun m => match m.last with
    | some e => m.sheet = r.sheet && m.column = r.col && m.row = r.row && e.column = r.endCol && e.rowNumber = r.endRow
    | none => false

variable (m : Option Formula.Mention)

def rowFixed : Bool := m.any (·.at_.rowFixed)

def colFixed : Bool := m.any (·.at_.colFixed)

def endRowFixed : Bool := m.any fun m => m.last.any (·.rowFixed)

def endColFixed : Bool := m.any fun m => m.last.any (·.colFixed)

/-- What the marks that are found for a target leave free follows the loop variable. -/
def loopPlacing (first : FormulaCell) : Direction → Placing
  | .vertical =>
    { ownPlacing with
      row := fun c => .ofMark (rowFixed (findCell? ms c)) c.row (c.row - first.row)
      rangeRow := fun r => .ofMark (rowFixed (findRange? ms r)) r.row (r.row - first.row)
      endRow := fun r => .ofMark (endRowFixed (findRange? ms r)) r.endRow (r.endRow - first.row) }
  | .horizontal =>
    { ownPlacing with
      col := fun c => .ofMark (colFixed (findCell? ms c)) c.col (Column.number c.col - first.colNumber)
      rangeCol := fun r => .ofMark (colFixed (findRange? ms r)) r.col (Column.number r.col - first.colNumber)
      endCol := fun r => .ofMark (endColFixed (findRange? ms r)) r.endCol (Column.number r.endCol - first.colNumber) }

def firstPlacing (d : Direction) (first : FormulaCell) : Placing :=
  loopPlacing (Formula.mentions first.formula first.sheet) first d

/-- What a variable of a script stands for. -/
inductive Variable where
  | cell (c : CellRef)
  | range (r : RangeRef)
  | table (t : TableRef)
  deriving DecidableEq

namespace Variable

def name : Variable → String
  | cell c => ScriptName.cell c.sheet c.col (rowText c.row)
  | range r => ScriptName.range r.sheet r.col (rowText r.row) r.endCol (rowText r.endRow)
  | table t => ScriptName.table t.table t.column

/-- The read of the store for a variable; none for a table column that is not known. -/
def read? (p : Placing) (tables : List Table) : Variable → Option String
  | cell c => some (cellRead c.sheet (p.col c).colText (p.row c).rowText)
  | range r => some (rangeRead r.sheet (p.rangeCol r).colText (p.rangeRow r).rowText (p.endCol r).colText
      (p.endRow r).rowText)
  | table t => (tableNamed? tables t.table).bind fun tbl => (tbl.columnLetters? t.column).map (tableRead tbl)

end Variable

/-- Variables with their reads, the longest names first. -/
def storeNamesOf (p : Placing) (tables : List Table) (vs : List Variable) : List (String × String) :=
  (vs.filterMap fun v => (v.read? p tables).map (v.name, ·)).mergeSort fun a b => b.1.length ≤ a.1.length

/-- The pairs of a name and its read in the order in which they are replaced: ranges, then tables,
then cells. -/
def storeNames (p : Placing) (tables : List Table) (refs : References) : List (String × String) :=
  storeNamesOf p tables (refs.ranges.map .range) ++ storeNamesOf p tables (refs.tables.map .table) ++
    storeNamesOf p tables (refs.cells.map .cell)

def storeExpression (p : Placing) (tables : List Table) (refs : References) (s : String) : String :=
  (storeNames p tables refs).foldl (fun s (var, new) => replace var new s) s

def workbookMark : Text.Pattern :=
  (.chr '[' ++ (Text.Pattern.noneOf "]").plus ++ .lit ".xls" ++ (Text.Pattern.chr 'x').opt ++ .chr ']').anyCase

/-- The read of what is mentioned, the same read in another workbook, and its name. -/
def mentionTexts (file : String) (m : Formula.Mention) : String × String × String :=
  let key := file ++ "|" ++ m.sheet
  let row := rowText m.row
  match m.last with
  | none =>
    (cellRead m.sheet (quoted m.column) row, cellRead key (quoted m.column) row, ScriptName.cell m.sheet m.column row)
  | some e =>
    let endRow := rowText e.rowNumber
    (rangeRead m.sheet (quoted m.column) row (quoted e.column) endRow,
      rangeRead key (quoted m.column) row (quoted e.column) endRow,
      ScriptName.range m.sheet m.column row e.column endRow)

/-- The read of a cell in another workbook gets the workbook's name into its key. -/
def resolveWorkbook (expr : String) (m : Formula.Mention) : Outcome String :=
  match m.file with
  | none => pure expr
  | some file => do
    let mark := "[" ++ file ++ "]"
    let (old, new, var) := mentionTexts file m
    let new ← template new
    if contains (mark ++ old) expr then pure (replaceFirst (mark ++ old) new expr)
    else pure (replaceFirst (mark ++ var) new expr)

/-- Marks that are left over vanish. -/
def resolveWorkbooks (expr formula sheet : String) : Outcome String := do
  let expr ← (Formula.mentions formula sheet).foldlM resolveWorkbook expr
  pure (workbookMark.replaceAll (fun _ => "") expr)

variable (tables : List Table)

def converted (c : FormulaCell) : Outcome (String × References) :=
  let conversion := c.conversion (tables.map (·.name))
  if conversion.complete then .ok (conversion.render, References.empty.addAll conversion.references)
  else .error .badValue

/-- Stores a value, or nothing if it cannot be computed. -/
def guarded (indent target expr : String) : List String :=
  [indent ++ "try:", indent ++ "    c[" ++ target ++ "] = " ++ expr, indent ++ "except Exception:",
    indent ++ "    c[" ++ target ++ "] = None"]

def storeKey (sheet col row : String) : String := "(" ++ quoted sheet ++ ", " ++ col ++ ", " ++ row ++ ")"

def cellLines (c : FormulaCell) (expr : String) : List String :=
  guarded "    " (storeKey c.sheet (quoted c.col) (rowText c.row)) expr

/-- The lines that compute the cells of a group by an expression in a loop. -/
def loopLines (g : Group) (first : FormulaCell) (expr : String) : List String :=
  let last := g.cells.getLast?.getD first
  match g.direction with
  | .vertical =>
    ("    # Vectorised: " ++ first.sheet ++ "!" ++ first.col ++ rowText first.row ++ ":" ++
        first.col ++ rowText last.row) ::
      ("    for _r in " ++ compactNumbers (g.cells.map fun c => (c.row : Int)) ++ ":") ::
      guarded "        " (storeKey first.sheet (quoted first.col) "_r") expr
  | .horizontal =>
    ("    # Vectorised: " ++ first.sheet ++ "!" ++ first.col ++ rowText first.row ++ ":" ++
        last.col ++ rowText first.row) ::
      ("    for _ci in " ++ compactNumbers (g.cells.map FormulaCell.colNumber) ++ ":") ::
      guarded "        " (storeKey first.sheet "_cl(_ci)" (rowText first.row)) expr

def placedExpression (p : Placing) (c : FormulaCell) : Outcome String := do
  let (expr, refs) ← converted tables c
  resolveWorkbooks (storeExpression p tables refs expr) c.formula c.sheet

def singleCode (c : FormulaCell) : Outcome (List String) := cellLines c <$> placedExpression tables ownPlacing c

def groupCode (g : Group) : Outcome (List String) :=
  match g.cells with
  | [] => pure []
  | first :: _ => loopLines g first <$> placedExpression tables (firstPlacing g.direction first) first

def Item.code (tables : List Table) : Item → Outcome (List String)
  | .group g => groupCode tables g
  | .single c => singleCode tables c

def computeSection (items : List Item) : Outcome (List String) := do
  let code ← items.mapM (Item.code tables)
  pure ("    # ---- Compute formulas (vectorised where possible) ----" :: "" :: code.flatten)

end Sheetwork.Vector
