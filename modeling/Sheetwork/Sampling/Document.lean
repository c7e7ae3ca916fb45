import Sheetwork.Sampling.Format
import Sheetwork.Sampling.Highlight
/-
  Sampling: samples and regions from records, and what is shown of them.
-/

namespace Sheetwork.Sampling

instance : OfValue Region :=
  ⟨fun v => ⟨v.field "min_row", v.field "max_row", v.field "min_col", v.field "max_col", v.field "header_row"⟩⟩

instance : OfValue ShownFormula :=
  ⟨fun v => { address := v.field "address", formula := v.field "formula",
              cached := (v.get? "cached_value").getD (.text "") }⟩

instance : OfValue ShownRow := ⟨fun v => { number := v.field "row_number", values := v.field "values" }⟩

instance : OfValue Patch :=
  ⟨fun v => .mk (v.field "region") (v.field "min_row") (v.field "max_row") (v.field "min_col")
    (v.field "max_col") (v.field "headers") (v.field "rows") (v.field "formulas")⟩

instance : OfValue Sample :=
  ⟨fun v => ⟨v.field "sheet_name", v.field "regions", v.field "sampled", v.field "total_rows", v.field "sampled_rows"⟩⟩

def Mode.named (name : String) (options : Value) : Mode :=
  match name with
  | "full" => .corner (options.field "nrows") (options.field "ncols")
  | "column_n" => .strip (options.fieldOr "num_columns" 10)
  | "row_head" => .rowHead (options.fieldOr "max_rows" 100)
  | "column_head" => .columnHead (options.fieldOr "max_cols" 20)
  | "smart_random" => .spread (options.fieldOr "max_sample_rows" 100)
  | _ => .telling (options.fieldOr "max_sample_rows" 100) (options.field "full")

def Sample.rendered (sample : Sample) (format : Value) (pretty : Bool) : Outcome Value := do
  let text (s : String) := Value.record [("text", s)]
  match format with
  | .text "markdown" => return text (← sample.markdown)
  | .text "xml" => return text sample.xml
  | .text "json" => return text (← sample.json pretty)
  | _ => return .record [("data", sample.document)]

def byRows (cells : List Position) : Value :=
  toValue ((bucketBy Position.row (Ordered.ofList cells)).map fun (r, ps) => (r, ps.map Position.col))

/-- The cells that each way of sampling takes. -/
def choices (s : Sheet) (most columns : Int) : Outcome Value := do
  pure (.record [("smart", byRows (tellingCells s most)), ("full", byRows (allCells s)),
    ("column_n", byRows (stripCells s columns)),
    ("smart_random", byRows (← spreadCells s most))])

def fills (w : Workbook) : Value :=
  .record (w.sheets.map fun s =>
    let filled := s.entries.filter fun (_, c) => c.style.fill.pattern.isSome
    (s.name, .record ((bucketBy (fun e => e.2.style.fill.foreground.digitsText) filled).map fun (k, es) =>
      (k, byRows (es.map (·.1))))))

end Sheetwork.Sampling
