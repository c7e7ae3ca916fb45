import Sheetwork.Sampling.Rows
import Sheetwork.Value.TypedColumn
/-
  Sampling: samples. A sample shows some rows and columns of every region of a sheet with the values that the formulas
  had; the mode says which.
-/

namespace Sheetwork.Sampling

/-! Frames. A frame holds a sheet as typed columns. A row that is taken from it
has one kind of number if all columns hold numbers but not of one type. -/

structure Frame where
  rowCount : Nat
  columns : Array TypedColumn

namespace Frame

variable (f : Frame)

def colCount : Nat := f.columns.size

def ofSheet (s : Sheet) : Outcome Frame := do
  let rows := between 1 s.maxRow
  let columns ← (between 1 s.maxCol).mapM fun c => TypedColumn.ofValues (rows.map fun r => s.value ⟨r, c⟩)
  pure ⟨s.maxRow, columns.toArray⟩

/-- The column of a number, counted from one. -/
def column (c : Nat) : TypedColumn :=
  if c = 0 then ⟨.mixed, #[]⟩ else (f.columns[c - 1]?).getD ⟨.mixed, #[]⟩

variable (r c : Nat)

/-- The value that is stored at a row and a column, both counted from one. -/
def stored : Value := if r = 0 then .null else ((f.column c).values[r - 1]?).getD .null

def holds : Bool := !(f.stored r c).isMissing

def isReal : Bool :=
  f.columns.all (·.type.isNumeric) && f.columns.any fun c => f.columns.any fun d => c.type ≠ d.type

/-- A value taken with its row, which has one kind of number if it has to. -/
def inRow : Value :=
  match f.stored r c with
  | .int n => if f.isReal then .float (Number.ofInt n) else .int n
  | v => v

def canHead : Bool :=
  match f.inRow r c with
  | .int _ | .float _ => false
  | .bool _ => (f.column c).type = .truth && f.columns.any fun c => c.type ≠ .truth
  | v => (Lineage.formulaOf? v).isNone

def isFormula : Bool := (Lineage.formulaOf? (f.stored r c)).isSome

/-- The runs of true marks, each by its ends; `i` is the number of the first mark and `start` where
an open run began. -/
def markedRuns (i : Nat) : Option Nat → List Bool → List (Nat × Nat)
  | none, [] => []
  | some a, [] => [(a, i - 1)]
  | none, true :: bs => markedRuns (i + 1) (some i) bs
  | some a, true :: bs => markedRuns (i + 1) (some a) bs
  | none, false :: bs => markedRuns (i + 1) none bs
  | some a, false :: bs => (a, i - 1) :: markedRuns (i + 1) none bs

def headerOf (minRow maxRow minCol maxCol : Nat) : Option Nat :=
  (Region.headerRows minRow maxRow).find? fun r =>
    let held := (between minCol maxCol).filter (f.holds r)
    !held.isEmpty && held.all (f.canHead r)

def regionOf? (minRow maxRow : Nat) : Option Region :=
  let cols := (between 1 f.colCount).filter fun c => (between minRow maxRow).any fun r => f.holds r c
  match cols.head?, cols.getLast? with
  | some minCol, some maxCol =>
    some { minRow, maxRow, minCol, maxCol, header := f.headerOf minRow maxRow minCol maxCol }
  | _, _ => none

def regions : List Region :=
  let marks := (between 1 f.rowCount).map fun r => (between 1 f.colCount).any (f.holds r)
  (markedRuns 1 none marks).filterMap fun (a, b) => f.regionOf? a b

end Frame

structure View where
  value : Nat → Nat → Value
  /-- A value as JSON has it. -/
  written : Nat → Nat → Value := value
  heading : Nat → Nat → String
  formula? : Nat → Nat → Option String

namespace View

def ofSheet (s : Sheet) : View where
  value r c := let x := s.cell ⟨r, c⟩; x.dataOnly.value
  heading r c := let v := s.value ⟨r, c⟩; if v.isNull then "" else v.toText
  formula? r c := Lineage.formulaOf? (s.value ⟨r, c⟩)

def shownIn (f : Frame) (r c : Nat) : Value :=
  let v := f.inRow r c
  if v.isMissing then .null else v

/-- Frames of the values and of the formulas. The truth values of a column of truth values have no
form in JSON but their text. -/
def ofFrames (values formulas : Frame) : View where
  value := shownIn values
  written r c :=
    let v := shownIn values r c
    if (values.column c).type = .truth then .text v.toText else v
  heading r c := let v := formulas.inRow r c; if v.isMissing then "" else v.toText
  formula? r c := Lineage.formulaOf? (formulas.stored r c)

end View

structure ShownFormula where
  (address formula : String)
  cached : Value
  written : Value := cached

structure ShownRow where
  number : Nat
  values : List Value
  written : List Value := values

structure Patch where
  region : String
  minRow : Nat
  maxRow : Int
  minCol : Nat
  maxCol : Int
  headers : List String
  rows : List ShownRow
  formulas : List ShownFormula

structure Sample where
  sheet : String
  patches : List Patch
  /-- Something of a region is not shown. -/
  sampled : Bool
  (totalRows shownRows : Nat)

variable (v : View)

def View.formulasOf (r : Nat) (cols : List Nat) : List ShownFormula :=
  cols.filterMap fun c => (v.formula? r c).map fun f => ⟨Position.address ⟨r, c⟩, f, v.value r c, v.written r c⟩

variable (reg : Region)

def View.patch (rows cols : List Nat) : Patch :=
  let rows := rows.filter fun r => some r ≠ reg.header
  { region := reg.name
    minRow := reg.minRow
    maxRow := reg.maxRow
    minCol := reg.minCol
    maxCol := reg.maxCol
    headers := (reg.header.map fun h => cols.map (v.heading h)).getD []
    rows := rows.map fun r => ⟨r, cols.map (v.value r), cols.map (v.written r)⟩
    formulas := rows.flatMap fun r => v.formulasOf r cols }

structure Choice where
  patch : Patch
  shownRows : Nat
  isPart : Bool

def Sample.ofChoices (sheet : String) (regs : List Region) (cs : List Choice) : Sample :=
  { sheet, patches := cs.map Choice.patch, sampled := cs.any Choice.isPart
    totalRows := (regs.map Region.rowCount).sum, shownRows := (cs.map Choice.shownRows).sum }

inductive Mode where
  /-- Telling rows of every region, at most so many of each, or all of them. -/
  | telling (most : Int) (full : Bool)
  /-- The first rows and columns of every region, as many as are wanted. -/
  | corner (rows cols : Option Int)
  /-- The first column with data and so many columns after it. -/
  | strip (count : Int)
  /-- The headers and the first rows, so many in the whole sheet. -/
  | rowHead (most : Nat)
  /-- The first columns, so many in the whole sheet. -/
  | columnHead (most : Nat)
  /-- Rows spread over every region, at most so many of each. -/
  | spread (most : Int)

def View.chooseRows (rows : List Nat) : Choice :=
  ⟨v.patch reg rows reg.cols, rows.length, rows.length < reg.rowCount⟩

def View.hasFormula (r : Nat) : Bool := reg.cols.any fun c => (v.formula? r c).isSome

def tellingChoice (most : Int) (full : Bool) (reg : Region) : Choice :=
  v.chooseRows reg (if full then reg.rows else pickRows reg (v.hasFormula reg) most)

def cornerChoice (rows cols : Option Int) (reg : Region) : Choice :=
  let maxRow : Int := (rows.map fun n => min (reg.maxRow : Int) (reg.minRow + n - 1)).getD reg.maxRow
  let maxCol : Int := (cols.map fun n => min (reg.maxCol : Int) (reg.minCol + n - 1)).getD reg.maxCol
  let shown := between reg.minRow maxRow.toNat
  let p := v.patch reg shown (between reg.minCol maxCol.toNat)
  let headers := if reg.header.all fun h => (h : Int) ≤ maxRow then p.headers else []
  ⟨{ p with maxRow, maxCol, headers }, shown.length, false⟩

variable (s : Sheet)

def labelColumn (s : Sheet) (reg : Region) : Nat :=
  (reg.cols.find? fun c => reg.rows.any fun r => !(s.value ⟨r, c⟩).isNull).getD reg.minCol

def stripEnds (count : Int) (reg : Region) : Nat × Int :=
  let label := labelColumn s reg
  (label, min ((label : Int) + count) reg.maxCol)

def stripChoice (count : Int) (reg : Region) : Choice :=
  let (label, last) := stripEnds s count reg
  let p := (View.ofSheet s).patch reg reg.rows (between label last.toNat)
  ⟨{ p with minCol := label, maxCol := last }, reg.rowCount, false⟩

def columnHeadChoice (budget : Nat) : Choice :=
  let cols := headCols reg budget
  let last := cols.getLast?.getD reg.minCol
  let p := v.patch reg reg.rows cols
  ⟨{ p with region := reg.nameTo last, maxCol := last }, reg.rowCount, cols.length < reg.colCount⟩

def Sample.ofCells (choose : Region → Choice) : Sample :=
  let regs := regions s
  .ofChoices s.name regs (regs.map choose)

/-- A sample of the frames of a sheet, with a budget for every region; sharing the budget may have
no end. -/
def Sample.ofFrames (budgets? : List Region → Option (List Nat))
    (choose : View → Region → Nat → Choice) : Outcome Sample := do
  let values ← Frame.ofSheet s.dataOnly
  let formulas ← Frame.ofSheet s
  let regs := formulas.regions
  let budgets ← (Fault.mk .endless none).ifNone (budgets? regs)
  pure (.ofChoices s.name regs (regs.zipWith (choose (.ofFrames values formulas)) budgets))

def Sample.ofSheet : Mode → Outcome Sample
  | .telling most full => .ok (.ofCells s (tellingChoice (.ofSheet s) most full))
  | .corner rows cols => .ok (.ofCells s (cornerChoice (.ofSheet s) rows cols))
  | .strip count => .ok (.ofCells s (stripChoice s count))
  | .rowHead most =>
    Sample.ofFrames s (fun regs => Budget.allocate (regs.map Region.rowCount) most)
      fun view reg budget => view.chooseRows reg (headRows reg budget)
  | .columnHead most =>
    Sample.ofFrames s (fun regs => Budget.allocate (regs.map Region.colCount) most) columnHeadChoice
  | .spread most =>
    Sample.ofFrames s (fun regs => some (regs.map Region.rowCount))
      fun view reg _ => view.chooseRows reg (spreadOrWhole reg (view.hasFormula reg) most)

end Sheetwork.Sampling
