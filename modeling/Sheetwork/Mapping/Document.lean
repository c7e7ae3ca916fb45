import Sheetwork.Mapping.Regeneration
import Sheetwork.Value.Convert
/-
  Mapping: inputs as records.
-/

namespace Sheetwork.Mapping

instance : OfValue Input :=
  ⟨fun v =>
    { col := v.field "col", row := v.field "row", colNumber := v.field "col_idx", value := v.get "value"
      format := v.get "nf", cell := v.field "cell" }⟩

instance : ToValue Input :=
  ⟨fun i => .record [("col", i.col), ("row", .int i.row), ("col_idx", .int i.colNumber), ("value", i.value),
      ("nf", i.format), ("cell", i.cell)]⟩

def sortKeyOf (r : Value) : Outcome (Nat × Nat × Nat) := do
  let type ← (Record.ofDict r).need "Type"
  pure (sortKey (ofValue type) (if (r.get "Cell").truthy then (r.get "Cell").toText else ""))

def headersDocument (vectors : List (List Input)) : Outcome (Value × List (List Input)) := do
  let (heads, rest) ← takeHeaders vectors
  pure (if heads.isEmpty then .null else .keyed (heads.map fun (k, v) => (.int k, v)), rest)

end Sheetwork.Mapping
