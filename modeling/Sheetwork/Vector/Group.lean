import Sheetwork.Formula.Cell
import Sheetwork.Formula.Drag
/-
  Vectors: formula cells that are dragged copies of one another. Cells of one sheet with one drag pattern are cut into
  vertical runs, then what is left into horizontal runs; runs of two or more are groups, everything else stays single.
-/

namespace Sheetwork

def FormulaCell.patternKey (c : FormulaCell) : String × Formula.DragPattern :=
  (c.sheet, Formula.dragPattern c.formula c.sheet c.colNumber c.row)

/-- Appends an element to the bucket of its key; buckets stay in the order of
their first element. -/
def bucket {κ α : Type} [DecidableEq κ] (k : κ) (a : α) : List (κ × List α) → List (κ × List α)
  | [] => [(k, [a])]
  | (k', as) :: r => if k = k' then (k', as ++ [a]) :: r else (k', as) :: bucket k a r

/-- The elements by key, keys in the order of their first element. -/
def bucketBy {κ α : Type} [DecidableEq κ] (key : α → κ) (xs : List α) : List (κ × List α) :=
  xs.foldl (fun acc a => bucket (key a) a acc) []

/-- Cuts a list where two neighbours are not adjacent. -/
def runs {α : Type} (adjacent : α → α → Bool) : List α → List (List α)
  | [] => []
  | a :: r =>
    match r, runs adjacent r with
    | b :: _, run :: rest => if adjacent a b then (a :: run) :: rest else [a] :: run :: rest
    | _, _ => [[a]]

namespace Vector

inductive Direction where
  | vertical | horizontal
  deriving DecidableEq

def Direction.name : Direction → String
  | vertical => "vertical"
  | horizontal => "horizontal"

/-- Two or more dragged copies in one column or one row. -/
structure Group where
  direction : Direction
  cells : List FormulaCell
  deriving DecidableEq

def isLong (run : List FormulaCell) : Bool := 2 ≤ run.length

section

variable (cells : List FormulaCell)

/-- The vertical runs of two or more, column by column. -/
def verticalRuns : List (List FormulaCell) :=
  (bucketBy FormulaCell.col cells).flatMap fun (_, cs) =>
    (runs (fun a b => a.row + 1 = b.row) (cs.mergeSort fun a b => a.row ≤ b.row)).filter isLong

def horizontalRuns : List (List FormulaCell) :=
  (bucketBy FormulaCell.row cells).flatMap fun (_, cs) =>
    (runs (fun a b => a.colNumber + 1 = b.colNumber) (cs.mergeSort fun a b => a.colNumber ≤ b.colNumber)).filter isLong

def isIn (runs : List (List FormulaCell)) (c : FormulaCell) : Bool := runs.any fun run => run.any fun d => d.ref = c.ref

def splitBucket : List Group × List FormulaCell :=
  let vertical := verticalRuns cells
  let rest := cells.filter fun c => !isIn vertical c
  let horizontal := horizontalRuns rest
  (vertical.map (⟨.vertical, ·⟩) ++ horizontal.map (⟨.horizontal, ·⟩), rest.filter fun c => !isIn horizontal c)

def group : List Group × List FormulaCell :=
  let parts := (bucketBy FormulaCell.patternKey cells).map fun (_, cs) => splitBucket cs
  (parts.flatMap (·.1), parts.flatMap (·.2))

end

inductive Item where
  | group (g : Group)
  | single (c : FormulaCell)
  deriving DecidableEq

def Item.cells : Item → List FormulaCell
  | group g => g.cells
  | single c => [c]

def Item.produced (it : Item) : List CellRef := it.cells.map FormulaCell.ref

def Item.needed (tables : List String) (it : Item) : Outcome (List CellRef) :=
  it.cells.foldlM (fun acc c => (c.references tables).map fun r => acc ++ r.allCells) []

def producers (items : List Item) : Std.HashMap CellRef Nat :=
  items.zipIdx.foldl (fun m (it, i) => it.produced.foldl (fun m c => m.insert c i) m) ∅

def waitsFor (made : Std.HashMap CellRef Nat) (i : Nat) (it : Item) (needed : List CellRef) : List Nat :=
  let own := it.produced
  Ordered.ofList ((needed.filter fun c => !own.contains c).filterMap fun c =>
    match made[c]? with
    | some j => if j = i then none else some j
    | none => none)

/-- Groups and singles, each after what it needs as far as that is possible. -/
def schedule (tables : List String) (groups : List Group) (singles : List FormulaCell) : Outcome (List Item) := do
  let items := groups.map Item.group ++ singles.map Item.single
  let made := producers items
  let waits ← items.zipIdx.mapM fun (it, i) => do
    let needed ← it.needed tables
    pure ((waitsFor made i it needed).map (·, i))
  let arr := items.toArray
  pure ((Graph.kahnAll items.length waits.flatten).filterMap (arr[·]?))

end Vector

end Sheetwork
