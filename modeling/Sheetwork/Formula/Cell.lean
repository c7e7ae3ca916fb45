import Sheetwork.Fault
import Sheetwork.Formula.Conversion
import Sheetwork.Graph.Kahn
/-
  Formulas: what formulas refer to, as ascending sets of cells, ranges and table columns; cells that hold formulas and
  what they read.
-/

namespace Sheetwork

/-- Ascending sets of references. -/
structure References where
  cells : List CellRef
  ranges : List RangeRef
  tables : List TableRef

namespace References

def empty : References := ⟨[], [], []⟩

def add (s : References) : Formula.Reference → References
  | .cell sheet c => { s with cells := Ordered.insert ⟨sheet, c.column, c.rowNumber⟩ s.cells }
  | .range sheet a b =>
    { s with ranges := Ordered.insert ⟨sheet, a.column, a.rowNumber, b.column, b.rowNumber⟩ s.ranges }
  | .table t c => { s with tables := Ordered.insert ⟨t, c⟩ s.tables }

def addAll (s : References) (rs : List Formula.Reference) : References := rs.foldl add s

end References

structure FormulaCell where
  (sheet col : String)
  row : Nat
  formula : String
  deriving DecidableEq, Ord, Inhabited

def References.allCells (r : References) : List CellRef := r.cells ++ r.ranges.flatMap RangeRef.cells

namespace FormulaCell

variable (c : FormulaCell)

def ref : CellRef := ⟨c.sheet, c.col, c.row⟩

def colNumber : Int := Column.number c.col

def address : String := c.col ++ Text.ofNat c.row

def conversion (tables : List String) (c : FormulaCell) : Formula.Conversion :=
  Formula.convert ⟨c.sheet, tables⟩ c.formula

def references (tables : List String) (c : FormulaCell) : Outcome References :=
  let conversion := c.conversion tables
  if conversion.complete then .ok (References.empty.addAll conversion.references)
  else .error .badValue

end FormulaCell

def References.ofCells (tables : List String) (cells : List FormulaCell) : Outcome References :=
  cells.foldlM (fun acc c =>
    let conversion := c.conversion tables
    if conversion.complete then .ok (acc.addAll conversion.references) else .error .badValue)
    References.empty

end Sheetwork

/-! An order of computation. Each formula comes after those it reads; ready
formulas are taken in ascending order of their cells, and what depends on a cycle comes last. -/

namespace Sheetwork.Formula

def latest (cells : List FormulaCell) : List FormulaCell := cells.foldl put []
where
  put : List FormulaCell → FormulaCell → List FormulaCell
    | [], c => [c]
    | d :: ds, c => if d.ref = c.ref then c :: ds else d :: put ds c

def ascending (cells : List FormulaCell) : List FormulaCell := cells.mergeSort fun a b => (compare a.ref b.ref).isLE

/-- What a formula reads, as edges between positions. -/
def edgesTo (index : Std.HashMap CellRef Nat) (c : FormulaCell) (reads : List CellRef) : List (Nat × Nat) :=
  (Ordered.ofList reads).filterMap fun d => (index[d]?).map (·, (index[c.ref]?).getD 0)

def order (tables : List String) (cells : List FormulaCell) : Outcome (List FormulaCell) := do
  let _ ← References.ofCells tables cells
  let cells := latest cells
  let sorted := ascending cells
  let index := Graph.positions (sorted.map FormulaCell.ref)
  let edges ← cells.mapM fun c => do pure (edgesTo index c (← c.references tables).allCells)
  let arr := sorted.toArray
  pure ((Graph.kahnAll sorted.length edges.flatten).filterMap (arr[·]?))

end Sheetwork.Formula
