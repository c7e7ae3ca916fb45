import Sheetwork.Formula.Cell
import Sheetwork.Formula.Drag
import Sheetwork.Value.Convert
/-
  Formulas: references, formulas and tables as records.
-/

namespace Sheetwork

instance : ToValue CellRef := ⟨fun c => toValue (c.sheet, c.col, c.row)⟩

instance : ToValue RangeRef := ⟨fun r => toValue (r.sheet, r.col, r.row, r.endCol, r.endRow)⟩

instance : ToValue TableRef := ⟨fun t => toValue (t.table, t.column)⟩

instance : ToValue FormulaCell := ⟨fun c => toValue (c.sheet, c.col, c.row, c.formula)⟩

instance : OfValue FormulaCell :=
  ⟨fun v =>
    let (sheet, col, row, formula) : String × String × Nat × String := ofValue v
    ⟨sheet, col, row, formula⟩⟩

def References.fields (r : References) : List (String × Value) :=
  [("cells", toValue r.cells), ("ranges", toValue r.ranges), ("tables", toValue r.tables)]

namespace Table

def ofRecord (name : String) (v : Value) : Table :=
  { name, sheet := v.field "sheet", ref := v.field "ref", columns := v.field "columns"
    headerRow := v.field "header_row", firstRow := v.field "data_start_row"
    lastRow := v.field "data_end_row", col := v.field "col_start", endCol := v.field "col_end" }

def allOfRecord : Value → List Table
  | .keyed es => es.map fun (k, v) => ofRecord (ofValue k) v
  | _ => []

def record (t : Table) : Value :=
  .record [("sheet", t.sheet), ("ref", t.ref), ("columns", toValue t.columns),
      ("header_row", toValue t.headerRow), ("data_start_row", toValue t.firstRow),
      ("data_end_row", toValue t.lastRow), ("col_start", t.col), ("col_end", t.endCol)]

end Table

namespace Formula

def Corner.fields (stem : String) (c : Corner) : List (String × Value) :=
  [(stem ++ "col_abs", .bool c.colFixed), (stem ++ "col", c.column),
    (stem ++ "col_idx", .int (Column.number c.column)), (stem ++ "row_abs", .bool c.rowFixed),
    (stem ++ "row", toValue c.rowNumber)]

instance : ToValue Mention :=
  ⟨fun m => .record ([("kind", .text (if m.isRange then "range" else "cell")), ("sheet", .text m.sheet),
        ("start", toValue m.start), ("end", toValue m.stop), ("raw", toValue m.raw)] ++
      (m.file.map fun f => ("external_file", Value.text f)).toList ++ m.at_.fields "" ++
      (m.last.map (Corner.fields "end_")).getD [])⟩

instance : ToValue Coordinate :=
  ⟨fun c => match c with
    | .fixedCol c => toValue ("abs", c)
    | .fixedRow r => toValue ("abs", r)
    | .free n => toValue ("rel", n)⟩

instance : ToValue DragToken :=
  ⟨fun t => .list ([.text (if t.endCol.isSome then "range" else "cell"), toValue t.file, toValue t.sheet, toValue t.col,
      toValue t.row] ++ (t.endCol.map toValue).toList ++ (t.endRow.map toValue).toList)⟩

instance : ToValue DragPattern := ⟨fun p => .record [("skeleton", toValue p.skeleton), ("tokens", toValue p.tokens)]⟩

end Formula

def Formula.orderDocument (tables : List String) (cells : List FormulaCell) : Outcome Value := do
  let refs ← References.ofCells tables cells
  let order ← Formula.order tables cells
  pure (.record [("refs", .record refs.fields),
    ("expanded", toValue (Ordered.ofList (refs.ranges.flatMap RangeRef.cells))),
    ("order", toValue (order.map FormulaCell.ref))])

end Sheetwork
