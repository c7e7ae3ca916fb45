import Sheetwork.Formula.Document
import Sheetwork.Workbook.Survey
/-
  Workbooks: surveys as records.
-/

namespace Sheetwork.Survey

instance : ToValue Entry :=
  ⟨fun e =>
    let l := e.look
    .record ([("value", e.value), ("data_type", e.kind.letter), ("number_format", l.numberFormat),
          ("font", .record [("bold", .bool l.bold), ("italic", .bool l.italic), ("size", toValue l.size),
            ("color", toValue l.color)]),
          ("alignment", .record [("horizontal", toValue l.horizontal), ("vertical", toValue l.vertical),
            ("wrap_text", toValue l.wrap)])] ++
        (l.fill.map fun c => ("fill_color", Value.text c)).toList)⟩

instance : ToValue Page :=
  ⟨fun p => .record [("cells", toValue (p.entries.map fun e => (e.col, e.row, e))), ("merged_cells", toValue p.merged),
      ("col_widths", .record (p.widths.map fun (k, w) => (k, .float w))),
      ("row_heights", .keyed (p.heights.map fun (k, h) => (toValue k, .float h)))]⟩

instance : ToValue Survey :=
  ⟨fun s => .record [("sheets", .record (s.pages.map fun p => (p.name, toValue p))),
      ("tables", .record (s.tables.map fun t => (t.name, t.record)))]⟩

end Sheetwork.Survey
