import Sheetwork.Formula.Document
import Sheetwork.Vector.Report
import Sheetwork.Vector.Code
/-
  Vectors: groups, schedules and reaches as records.
-/

namespace Sheetwork.Vector

instance : ToValue Group := ⟨fun g => .record [("dir", g.direction.name), ("cells", toValue g.cells)]⟩

instance : ToValue Item :=
  ⟨fun i => match i with
    | .group g => toValue g
    | .single c => toValue c⟩

instance : ToValue Reach :=
  ⟨fun r => .record ([("sheet", .text r.cell.sheet), ("col", .text r.cell.col), ("row", toValue r.cell.row),
        ("cell", .text r.cell.address), ("formula", .text r.cell.formula),
        ("ref_type", .text r.kind)] ++
      match r.file with
      | some f => [("external_file", .text f), ("external_sheet", .text r.sheet)]
      | none => [("target_sheet", .text r.sheet)])⟩

def record (tables : List Table) (cells : List FormulaCell) : Outcome Value := do
  let (groups, singles) := group cells
  let order ← schedule (tables.map (·.name)) groups singles
  let code ← computeSection tables order
  let reaches := reaches cells
  let (calculations, outputs) := classify cells
  pure (.record
    [("groups", toValue groups), ("singles", toValue singles), ("order", toValue order), ("code", toValue code),
      ("external", .record ((workbookUses cells).map fun (f, cs) => (f, toValue cs))),
      ("analysis", .record [("cross_sheet", toValue (acrossSheets reaches)),
        ("external", toValue (acrossWorkbooks reaches))]),
      ("calculations", toValue (calculations.map FormulaCell.ref)),
      ("outputs", toValue (outputs.map FormulaCell.ref))])

end Sheetwork.Vector
