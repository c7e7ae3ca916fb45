import Sheetwork.Model.Program
import Sheetwork.Valuation.Formulas
/-
  Valuation: the financial model of a gas company as a program. The formulas of nine sheets are computed in one order,
  from whatever inputs a workbook of the same layout has.
-/

namespace Sheetwork.Valuation

open Model

def sheets : List (String × List Dragged) :=
  [("COMPANY OVERVIEW", overview), ("PRESENTATION", presentation), ("Segment Revenue Model", segments),
    ("INCOME STATEMENT", income), ("CASH FOW STATEMENT", cashFlow), ("BALANCESHEET", balance),
    ("Debt Schedule", debt), ("Valuation", worth), ("Ratio Analysis", ratios)]

def formulasOf (sheet : String) (lines : List Dragged) : Outcome (List (Place × Slot × String)) := do
  let cells := Ordered.sortOn (·.1) (← lines.mapM Dragged.expand).flatten
  pure (cells.map fun (p, f) => (Place.mk sheet p.address, ⟨p.row, p.col⟩, f))

/-- What is computed for a cell: the formula of the line it is in. -/
def expr (sheets : List (String × List Dragged)) (p : Place) : Outcome Expr := do
  let (_, lines) ← Fault.missingKey.ifNone (sheets.find? (·.1 = p.sheet))
  let cell ← Fault.missingKey.ifNone (Address.position? p.cell)
  let formula ← Fault.missingKey.ifNone (lines.findSome? (·.formulaAt? cell))
  Expr.ofFormula p (← formula)

def step (sheets : List (String × List Dragged)) (c : Context) (p : Place) : Outcome (Context × Value) := do
  let c ← Program.step c (p, ← expr sheets p)
  pure (c, ← c.cell p.sheet p.cell)

def program (sheets : List (String × List Dragged)) : Outcome (List Compiled) := do
  Program.ofFormulas (← sheets.mapM fun (name, lines) => formulasOf name lines).flatten

/-- Some formulas of the program, by their places in its order, and how many there are in all. -/
def part (first last : Nat) : Outcome Value := do
  let cs ← program sheets
  let some_ := (cs.take last).drop first
  pure (.record [("n", .ofNat cs.length), ("slice", .list (some_.map fun c => .list [c.place.sheet, c.place.cell])),
    ("names", .list (some_.map fun c => .text c.name))])

def values (w : Workbook) : Value :=
  let cells (s : Sheet) := (s.entries.filter (·.2.isKept)).map fun (p, c) => (p.address, c.value)
  toValue (w.sheets.map fun s => (s.name, cells s))

end Sheetwork.Valuation
