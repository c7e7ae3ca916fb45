import Sheetwork.Sampling.Format
/-
  Sampling: what a workbook holds, sheet by sheet, without its contents.
-/

namespace Sheetwork.Sampling

def sheetFormulas (s : Sheet) : List ShownFormula :=
  s.entries.filterMap fun (p, c) =>
    (Lineage.formulaOf? c.value).map fun formula => { address := p.address, formula, cached := c.dataOnly.value }

def sheetSummary (s : Sheet) : Value :=
  let regs := regions s
  .record [("name", s.name), ("max_row", .int s.maxRow), ("max_column", .int s.maxCol),
    ("regions", .list (regs.map fun r => .text r.name)), ("region_count", .int regs.length),
    ("formula_count", .int (sheetFormulas s).length)]

def summary (path : String) (w : Workbook) : Value :=
  .record [("file", path), ("sheets", .list (w.sheets.map sheetSummary))]

end Sheetwork.Sampling
