import Sheetwork.Layers.Inputs
/-
  Layers: the inputs of a report as tables. Patches of adjacent inputs become tables with headings, turned round when
  most headings are periods; single inputs go to one list, and an index says where everything came from.
-/

namespace Sheetwork.Layers

namespace Structured

inductive Shape where
  | scalar | vector | table
  deriving DecidableEq

def Shape.name : Shape → String
  | scalar => "Scalar"
  | vector => "Vector"
  | table => "Table"

/-- The inputs of one sheet by position, each position once with its latest value. -/
abbrev Grid := List (Position × Value)

def Grid.get? (g : Grid) (p : Position) : Option Value := (g.find? (·.1 = p)).map (·.2)

def Grid.ofRows (rows : List Record) : Outcome Grid :=
  rows.foldlM (fun g r => do
    let row ← Inputs.rowNumber (← r.need "RowNum")
    let col ← Address.columnNumber (Inputs.columnLetters (← r.need "ColNum"))
    pure (putBy Prod.fst (⟨row.toNat, col⟩, ← r.need "Value") g)) []

structure Patch where
  sheet : String
  area : Area
  shape : Shape
  (rowHeadings colHeadings : List Value)
  data : List (List Value)

def upTo (a b : Nat) : List Nat := (List.range (b + 1 - a)).map (a + ·)

def areaOf (cells : List Position) : Area :=
  match cells with
  | [] => ⟨0, 0, 0, 0⟩
  | p :: ps => ps.foldl (fun a q =>
      ⟨min a.minRow q.row, min a.minCol q.col, max a.maxRow q.row, max a.maxCol q.col⟩)
      ⟨p.row, p.col, p.row, p.col⟩

namespace Patch

def table (sheet : String) (g : Grid) (a : Area) : Patch :=
  let at_ (d : Value) (r c : Nat) := (g.get? ⟨r, c⟩).getD d
  let below := upTo (a.minRow + 1) a.maxRow
  { sheet
    area := a
    shape := .table
    rowHeadings := below.map fun r => at_ (.text "") r a.minCol
    colHeadings := (upTo a.minCol a.maxCol).map fun c => at_ (.text "") a.minRow c
    data := below.map fun r => (upTo (a.minCol + 1) a.maxCol).map fun c => at_ .null r c }

/-- The patch of adjacent cells; of two cells the first is the heading of the other. -/
def ofCells (sheet : String) (g : Grid) (cells : List Position) : Patch :=
  let a := areaOf cells
  let value (p : Position) := (g.get? p).getD .null
  match cells with
  | [p] => ⟨sheet, a, .scalar, [], [], [[value p]]⟩
  | [p, q] =>
    let (p, q) := if (compare p q).isLE then (p, q) else (q, p)
    ⟨sheet, a, .vector, [value p], [], [[value q]]⟩
  | _ => table sheet g a

def rangeText (p : Patch) : String := p.area.corner.address ++ ":" ++ (Position.mk p.area.maxRow p.area.maxCol).address

def arePeriods (headings : List Value) : Bool := headings.length < 2 * (headings.filter isPeriod).length

def isTurned (p : Patch) : Bool := p.shape = .table && arePeriods p.colHeadings

end Patch

def patches (parts : List (String × Grid)) : List Patch :=
  parts.flatMap fun (sheet, g) => (Patches.ofCells (g.map (·.1.slot))).map fun cells =>
    Patch.ofCells sheet g (cells.map Slot.position)

variable (ps : List Patch)

/-- The single inputs with the number of their patch. -/
def scalars : List (Nat × Patch) :=
  (ps.zipIdx.map fun (p, i) => (i + 1, p)).filter fun e => e.2.shape = .scalar

def tables : List (String × Patch) :=
  (bucketBy Patch.sheet (ps.filter fun p => p.shape ≠ .scalar)).flatMap fun (sheet, ps) =>
    ps.zipIdx.map fun (p, i) => (if 1 < ps.length then sheet ++ "_" ++ Text.ofNat (i + 1) else sheet, p)

def maxTitle : Nat := 31

def configHeadings : List String := ["Parameter", "Value", "SourceSheet", "SourceCell"]

def configSheet : Outcome Sheet := do
  let s : Sheet := { name := "Config" }
  let s ← Report.fillRow s 1 (Value.texts configHeadings)
  let s := s.restyleRow 1 4 Report.headingStyle
  let s ← (scalars ps).zipIdx.foldlM (fun s ((n, p), i) => Report.fillRow s (i + 2)
    [.text (p.sheet ++ "_" ++ Text.ofNat n), ((p.data.head?.bind List.head?).getD .null), .text p.sheet, p.rangeText]) s
  pure (s.withWidths [20.0, 20.0, 20.0, 20.0])

def bold (st : Style) : Style := { st with font := Font.boldOnly }

def writeHeadings (s : Sheet) (at_ : Nat → Position) (vs : List Value) : Outcome Sheet :=
  vs.zipIdx.foldlM (fun s (v, i) => do
    let p := at_ i
    let s ← if v.isNull then pure s else s.put p v
    pure (s.restyle p bold)) s

def writeData (s : Sheet) (at_ : Nat → Nat → Position) (rows : List (List Value)) : Outcome Sheet :=
  rows.zipIdx.foldlM (fun s (row, i) => row.zipIdx.foldlM (fun s (v, j) =>
    if v.isNull then pure (s.touch (at_ i j)) else s.put (at_ i j) v) s) s

/-- The sheet of a table; a turned one has its column headings down the first column. -/
def tableSheet (name : String) (p : Patch) : Outcome Sheet := do
  let s : Sheet := { name := Text.take maxTitle name }
  let s ← if p.isTurned then do
      let s ← writeHeadings s (fun i => ⟨i + 2, 1⟩) p.colHeadings
      let s ← writeHeadings s (fun _ => ⟨1, 1⟩) ["Period"]
      let s ← writeHeadings s (fun i => ⟨1, i + 2⟩) p.rowHeadings
      writeData s (fun i j => ⟨j + 2, i + 2⟩) p.data
    else do
      let s ← s.write 1 1 (.text "")
      let s ← writeHeadings s (fun i => ⟨1, i + 2⟩) p.colHeadings
      let s ← writeHeadings s (fun i => ⟨i + 2, 1⟩) p.rowHeadings
      writeData s (fun i j => ⟨i + 2, j + 2⟩) p.data
  pure (s.withWidths (List.replicate s.maxCol 15.0))

def indexHeadings : List String := ["StructuredTable", "SourceSheet", "CellRange", "TableType", "Transposed", "Notes"]

def notes (p : Patch) : String :=
  Text.ofNat p.rowHeadings.length ++ " rows × " ++ Text.ofNat p.colHeadings.length ++ " columns" ++
    if p.isTurned then " (transposed for time-series)" else ""

def indexRows : List (List Value) :=
  let singles := scalars ps
  let config : List (List Value) := if singles.isEmpty then [] else
    [["Config", "(multiple)", "(multiple)", "Scalar", .bool false,
      .text (Text.ofNat singles.length ++ " scalar parameters")]]
  config ++ (tables ps).map fun (name, p) =>
    [.text (Text.take maxTitle name), p.sheet, p.rangeText, p.shape.name, .bool p.isTurned, .text (notes p)]

def indexSheet (name : String) (ps : List Patch) : Outcome Sheet := do
  let s : Sheet := { name }
  let s ← Report.fillRow s 1 (Value.texts indexHeadings)
  let s := s.restyleRow 1 6 Report.headingStyle
  let s ← (indexRows ps).zipIdx.foldlM (fun s (row, i) => Report.fillRow s (i + 2) row) s
  pure (s.withWidths (List.replicate 6 20.0))

def workbook : Outcome Workbook := do
  let w : Workbook ← if (scalars ps).isEmpty then pure {} else do
    pure (Workbook.append {} (← configSheet ps))
  let w ← (tables ps).foldlM (fun (w : Workbook) (name, p) => do
    Workbook.checkTitle (Text.take maxTitle name)
    pure (w.append (← tableSheet name p))) w
  let front ← indexSheet (w.freeName "Index") ps
  pure { w with sheets := front :: w.sheets }

def grids (report : Workbook) : Outcome (List (String × Grid)) := do
  let parts ← (Report.sheets report).mapM fun s => do
    let rows ← Inputs.inputRows s
    pure (s.name, ← Grid.ofRows rows)
  pure (parts.filter fun p => !p.2.isEmpty)

end Structured

def makeStructured (fs : Files) (report target : String) : Outcome Files := do
  let w ← openWorkbook fs report
  let parts ← Structured.grids w.dataOnly
  fs.storeIn target (← Structured.workbook (Structured.patches parts))

end Sheetwork.Layers
