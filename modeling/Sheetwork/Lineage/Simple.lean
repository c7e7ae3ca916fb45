import Sheetwork.Lineage.Patterns
/-
  Lineage: sheet by sheet. Inputs are values that formulas name, outputs are formulas that no formula names,
  calculations are the patterns; edges run from a sheet to a sheet whose formulas name it.
-/

namespace Sheetwork.Lineage

structure ColumnUse where
  (sheet column header : String)
  extent : Extent

def ColumnUse.label (u : ColumnUse) : String :=
  u.sheet ++ "!" ++ u.column ++ if u.header.isEmpty then "" else " (" ++ u.header ++ ")"

structure SheetLineage where
  patterns : SheetPatterns
  (inputs outputs : List ColumnUse)

structure Simple where
  sheets : List SheetLineage
  edges : List (String × String)

def columnUses (sheet : String) (hs : List (String × String)) (ps : List Position) : List ColumnUse :=
  let columns := (bucketBy Position.colName ps).mergeSort fun a b => columnLe a.1 b.1
  columns.map fun (col, ps) => ⟨sheet, col, headerOf hs col, .ofRows (ps.map (·.row))⟩

variable (w : Workbook)

def named : List CellRef :=
  w.sheets.flatMap fun s => (formulas s).flatMap fun f => targets f.formula s.name

def sheetLineage (isNamed : CellRef → Bool) (s : Sheet) : SheetLineage :=
  let p := sheetPatterns s
  let held := s.entries.filter fun (_, c) => !c.value.isNull
  let here (q : Position) := isNamed ⟨s.name, q.colName, q.row⟩
  let uses (counts : Position × Cell → Bool) := columnUses s.name p.headers ((held.filter counts).map (·.1))
  ⟨p, uses fun (q, c) => (formulaOf? c.value).isNone && here q,
    uses fun (q, c) => (formulaOf? c.value).isSome && !here q⟩

def sheetEdges : List (String × String) :=
  let edges := w.sheets.flatMap fun s => (formulas s).flatMap fun f =>
    (targets f.formula s.name).filterMap fun t =>
      if t.sheet.toList.contains '|' || t.sheet = s.name then none else some (t.sheet, s.name)
  edges.eraseDups.mergeSort fun a b => ((Value.textOrder a.1 b.1).then (Value.textOrder a.2 b.2)).isLE

def simple : Simple :=
  let all := (named w).foldl (fun m c => m.insert c ()) (∅ : Std.HashMap CellRef Unit)
  ⟨w.sheets.map (sheetLineage all.contains), sheetEdges w⟩

/-! Documents -/

def ColumnUse.document (u : ColumnUse) : Value :=
  .record (("column", u.column) :: ("header", u.header) :: ("label", u.label) :: u.extent.document)

def calculationDocuments (c : ColumnPatterns) : List Value :=
  c.patterns.map fun p =>
    .record (("column", c.column) :: ("header", c.header) :: p.entries.filter (·.1 ≠ "example_cell"))

def SheetLineage.document (s : SheetLineage) : Value :=
  .record [("sheet_name", s.patterns.sheet), ("inputs", .list (s.inputs.map ColumnUse.document)),
    ("outputs", .list (s.outputs.map ColumnUse.document)),
    ("calculations", .list (s.patterns.columns.flatMap calculationDocuments))]

def edgeDocument (e : String × String) : Value := .tuple [e.1, e.2]

def Simple.document (path : String) (l : Simple) : Value :=
  .record [("file", path), ("sheets", .list (l.sheets.map SheetLineage.document)),
    ("cross_sheet_edges", .list (l.edges.map edgeDocument))]

/-! Workbooks -/

def useRow (sheet : String) (u : ColumnUse) : List Value := sheet :: u.column :: u.header :: u.extent.row

def calculationRows (s : SheetPatterns) : List (List Value) :=
  s.columns.flatMap fun c => c.patterns.map fun p =>
    s.sheet :: c.column :: c.header :: p.pattern :: p.example_.formula :: p.extent.row

def Simple.workbook (l : Simple) : Outcome Workbook := do
  let uses := fun name (part : SheetLineage → List ColumnUse) =>
    Sheet.ofRows name ["Sheet", "Column", "Header", "Row Range", "Count"]
      (l.sheets.flatMap fun s => (part s).map (useRow s.patterns.sheet)) 22.0
  let overview ← Sheet.ofRows "Overview" ["Sheet", "Inputs", "Calculations", "Outputs"]
    (l.sheets.map fun s => [s.patterns.sheet, .ofNat s.inputs.length, .ofNat s.patterns.unique,
      .ofNat s.outputs.length]) 25.0
  let inputs ← uses "Inputs" (·.inputs)
  let calculations ← Sheet.ofRows "Calculations"
    ["Sheet", "Column", "Header", "Pattern", "Example", "Row Range", "Count"]
    (l.sheets.flatMap fun s => calculationRows s.patterns) 28.0
  let outputs ← uses "Outputs" (·.outputs)
  let edges ← Sheet.ofRows "Cross-Sheet Edges" ["Source Sheet", "Target Sheet"] (l.edges.map fun e => [e.1, e.2]) 30.0
  pure { sheets := [overview, inputs, calculations, outputs, edges] }

end Sheetwork.Lineage

/-! Column by column. The example of each pattern tells what the pattern depends
on; edges run between columns, each once, in the order of their first mention. -/

namespace Sheetwork.Lineage

structure PatternLineage where
  (column header : String)
  pattern : ColumnPattern
  targets : List CellRef

structure ComplexSheet where
  patterns : SheetPatterns
  lineages : List PatternLineage

structure Complex where
  sheets : List ComplexSheet

def node (sheet col : String) : String := sheet ++ "!" ++ col

def CellRef.node (c : CellRef) : String := Lineage.node c.sheet c.col

def complexSheet (s : Sheet) : ComplexSheet :=
  let p := sheetPatterns s
  ⟨p, p.columns.flatMap fun c => c.patterns.map fun q => ⟨c.column, c.header, q, targets q.example_.formula s.name⟩⟩

def complex (w : Workbook) : Complex := ⟨w.sheets.map complexSheet⟩

structure Dependency where
  (sheet column pattern : String)
  target : CellRef

variable (l : Complex)

def Complex.dependencies : List Dependency :=
  l.sheets.flatMap fun s => s.lineages.flatMap fun p => p.targets.map fun t =>
    ⟨s.patterns.sheet, p.column, p.pattern.pattern, t⟩

def Complex.edges : List (String × String) :=
  (l.dependencies.filterMap fun d =>
    let source := CellRef.node d.target
    let target := node d.sheet d.column
    if source = target then none else some (source, target)).eraseDups

variable (d : Dependency)

def Dependency.isOutside : Bool := d.target.sheet.toList.contains '|'

def Complex.acrossSheets : List Dependency :=
  l.dependencies.filter fun d => !d.isOutside && d.target.sheet ≠ d.sheet

def Complex.acrossWorkbooks : List Dependency := l.dependencies.filter (·.isOutside)

def Dependency.outside : String × String := (Text.cut? "|" d.target.sheet).getD (d.target.sheet, "")

def PatternLineage.nodes (p : PatternLineage) : List String :=
  (p.targets.map CellRef.node).eraseDups.mergeSort fun a b => (Value.textOrder a b).isLE

/-! Documents -/

def PatternLineage.document (p : PatternLineage) : Value :=
  .record (("column", p.column) :: ("header", p.header) :: (p.pattern.entries ++
    [("dependencies", .list (p.nodes.map .text)),
    ("dependency_detail", .list (p.targets.map fun t =>
      .record [("sheet", t.sheet), ("column", t.col), ("row", .ofNat t.row)]))]))

def ComplexSheet.document (s : ComplexSheet) : Value :=
  .record [("sheet_name", s.patterns.sheet), ("total_formula_cells", .ofNat s.patterns.total),
    ("unique_patterns", .ofNat s.patterns.unique),
    ("patterns", .list (s.lineages.map PatternLineage.document))]

def Dependency.common : List (String × Value) :=
  [("source_sheet", d.sheet), ("source_column", d.column), ("formula_pattern", d.pattern)]

def Complex.document (path : String) (l : Complex) : Value :=
  .record [("file", .text path), ("sheets", .list (l.sheets.map ComplexSheet.document)),
    ("cross_sheet_refs", .list (l.acrossSheets.map fun d => .record (d.common ++
      [("target_sheet", .text d.target.sheet), ("target_column", .text d.target.col)]))),
    ("external_refs", .list (l.acrossWorkbooks.map fun d => .record (d.common ++
      [("external_file", .text d.outside.1), ("external_sheet", .text d.outside.2),
        ("external_column", .text d.target.col)]))),
    ("dependency_edges", .list (l.edges.map edgeDocument))]

/-! Workbooks -/

def Complex.workbook : Outcome Workbook := do
  let summary ← Sheet.ofRows "Summary" ["Sheet", "Total Formulas", "Unique Patterns"]
    (l.sheets.map fun s => [s.patterns.sheet, .ofNat s.patterns.total, .ofNat s.patterns.unique]) 25.0
  let patterns ← Sheet.ofRows "All Patterns"
    ["Sheet", "Column", "Header", "Pattern", "Example Cell", "Example Formula", "Row Range", "Count", "Dependencies"]
    (l.sheets.flatMap fun s => s.lineages.map fun p =>
      Value.texts [s.patterns.sheet, p.column, p.header, p.pattern.pattern, p.pattern.example_.at_.address,
        p.pattern.example_.formula] ++ p.pattern.extent.row ++ [.text (Text.join ", " p.nodes)]) 30.0
  let edges ← Sheet.ofRows "Dependency Edges" ["Source (Sheet!Col)", "Target (Sheet!Col)"]
    (l.edges.map fun e => Value.texts [e.1, e.2]) 35.0
  let sheets ← Sheet.ofRows "Cross-Sheet Refs"
    ["Source Sheet", "Source Column", "Pattern", "Target Sheet", "Target Column"]
    (l.acrossSheets.map fun d => Value.texts [d.sheet, d.column, d.pattern, d.target.sheet, d.target.col]) 28.0
  let files ← Sheet.ofRows "External Refs"
    ["Source Sheet", "Source Column", "Pattern", "External File", "External Sheet", "External Column"]
    (l.acrossWorkbooks.map fun d =>
      Value.texts [d.sheet, d.column, d.pattern, d.outside.1, d.outside.2, d.target.col]) 28.0
  pure { sheets := [summary, patterns, edges, sheets, files] }

end Sheetwork.Lineage
