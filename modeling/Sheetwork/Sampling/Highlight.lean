import Sheetwork.Sampling.Sample
import Sheetwork.Workbook.Files
/-
  Sampling: colouring the cells that a sampler shows.
-/

namespace Sheetwork.Sampling

def cellsAt (rows cols : List Nat) : List Position := rows.flatMap fun r => cols.map fun c => ⟨r, c⟩

variable (s : Sheet)

/-- The cells of the rows that tell most of every region, the header always among them. -/
def tellingCells (most : Int) : List Position :=
  (regions s).flatMap fun reg =>
    let rows := pickRows reg ((View.ofSheet s).hasFormula reg) most
    cellsAt (addAll reg.header.toList rows) reg.cols

def allCells : List Position := (regions s).flatMap fun reg => cellsAt reg.rows reg.cols

def stripCells (count : Int) : List Position :=
  (regions s).flatMap fun reg =>
    let (label, last) := stripEnds s count reg
    cellsAt reg.rows (between label last.toNat)

/-- The cells of the rows that are spread over every region. -/
def spreadCells (most : Int) : Outcome (List Position) := do
  let f ← Frame.ofSheet s
  pure (f.regions.flatMap fun reg => cellsAt (spreadOrWhole reg (fun r => reg.cols.any (f.isFormula r)) most) reg.cols)

def standardRows : Int := 100

def standardColumns : Int := 10

def painted (color : Color) (cells : List Position) : Sheet :=
  cells.foldl (fun s p => s.restyle p fun st => { st with fill := .solid color }) s

/-- A way of choosing cells with its name and its colour. -/
structure Marker where
  name : String
  color : Color
  cells : Sheet → List Position

def markers : List Marker :=
  [⟨"smart_random", .rgb "00FFFF99", (tellingCells · standardRows)⟩, ⟨"full", .rgb "0099FF99", allCells⟩,
    ⟨"column_n", .rgb "0099CCFF", (stripCells · standardColumns)⟩]

def Marker.paint (m : Marker) (w : Workbook) : Workbook :=
  { w with sheets := w.sheets.map fun s => painted s m.color (m.cells s) }

structure Made where
  files : Files
  log : List String

def paintAll (fs : Files) (path : String) (dir : String) : Outcome Made := do
  let base := (Path.splitExtension (Path.base path)).1
  markers.foldlM (fun (d : Made) m => do
    let out := Path.join dir (base ++ "_" ++ m.name ++ ".xlsx")
    let fs ← d.files.save out (m.paint (← d.files.load path))
    pure ⟨fs, d.log ++ ["Saved: " ++ out]⟩) ⟨fs, []⟩

def highlightColor : Color := .rgb "00FFFF00"

/-- Saves a copy with the spread cells of one sheet or of all coloured; gives its path. -/
def highlight (fs : Files) (path : String) (sheet : Option String) (most : Int) : Outcome (Files × String) := do
  let w ← fs.load path
  let names := match sheet.filter fun s => !s.isEmpty with
    | some n => [n]
    | none => w.sheetNames
  let w ← names.foldlM (fun (w : Workbook) n => do
    let s ← w.sheet n
    pure (w.putSheet (painted s highlightColor (← spreadCells s most)))) w
  let (base, ext) := Path.splitExtension path
  let out := base ++ "_highlighted" ++ ext
  pure (← fs.save out w, out)

end Sheetwork.Sampling
