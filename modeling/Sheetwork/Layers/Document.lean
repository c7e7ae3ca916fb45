import Sheetwork.Layers.Code.Block
import Sheetwork.Layers.Engine
/-
  Layers: what can be asked about a workbook, as records.
-/

namespace Sheetwork.Layers

def Graph.describe (g : Graph) (w : Workbook) (sheet cell : String) : Outcome Value := do
  let _ ← w.sheet sheet
  let k := g.classify sheet cell
  let name := cellName sheet cell
  pure (toValue (k.name, k.name, k == Graph.Kind.input, k == Graph.Kind.calculation, k == Graph.Kind.output,
    g.precedentsOf name, g.dependentsOf name))

variable (w : Workbook)

def Analysis.ofWorkbook (threshold : Value) : Outcome (Analysis × List (List Group)) :=
  w.sheets.foldlM (fun (a, groups) s => do
    let (a, _, gs) ← a.sheet s
    pure (a, groups ++ [gs])) (({ threshold } : Analysis), [])

def Analysis.document (threshold : Value) (ids : List Int) : Outcome (List (String × Value)) := do
  let (a, groups) ← ofWorkbook w threshold
  let first (id : Int) := ((a.groupWithId? id).bind fun g => g.cells.head?).map Position.address
  pure [("groups", .list (groups.map fun gs => .list (gs.map Group.document))),
    ("stats", .record (a.counts.map fun (k, n) => (k, .ofNat n))), ("ids", toValue (ids.map first)),
    ("next", toValue a.nextId)]

def lookAt (sheet address : String) : Outcome (Workbook × Value) := do
  let s ← w.sheet sheet
  let p ← Fault.badValue.ifNone (Address.position? address)
  pure (w.putSheet (s.touch p), (CellInfo.ofSheet s p).document)

def lookAll (w : Workbook) : List (String × String) → Workbook × List (Outcome Value)
  | [] => (w, [])
  | (sheet, address) :: rest =>
    match lookAt w sheet address with
    | .ok (w, v) => (lookAll w rest).map id (.ok v :: ·)
    | .error f => (lookAll w rest).map id (.error f :: ·)

def cellsDocument : Outcome (List (String × Value)) := do
  let g ← Graph.ofWorkbook w
  pure [("cells", .list ((CellRecord.ofWorkbook g w).map CellRecord.document)),
    ("range", toValue (w.sheets.map fun s => (1, s.maxRow, 1, s.maxCol)))]

def Code.Drag.ofDocument (v : Value) : Code.Drag :=
  { id := v.field "group_id", sheet := v.field "sheet", direction := v.get "direction"
    cells := v.field "cells", base := v.get "base_formula", pattern := v.get "pattern_formula"
    size := v.field "group_size", isLarge := v.field "vectorizable" }

def Code.entriesDocument : Outcome Value := do
  let es ← Code.Entry.ofReport w.dataOnly
  let gs ← Code.Drag.ofReport es
  let cells ← es.mapM Code.Entry.expand
  pure (.record [("vectorizable", toValue ((gs.filter (·.isLarge == some true)).map (·.id))),
    ("groups", .list ((Ordered.sortOn Code.Drag.id gs).map Code.Drag.document)),
    ("cells", .list (cells.flatten.map Code.Entry.document))])

def isDragged (shift : String → Int → Outcome String) (f g : String) (m n : Int) : Outcome Bool :=
  (shift f (n - m)).map (· == g)

/-- The value of a formula where the values of some cells are listed; of two for a cell
the later counts. -/
def Engine.evaluateWith (formula sheet : String) (cells : List (String × String × Value)) : Value :=
  let known (p : Place) := (cells.reverse.find? fun (s, a, _) => s = p.sheet && a = p.address).map (·.2.2)
  Engine.evaluate known formula sheet

end Sheetwork.Layers
