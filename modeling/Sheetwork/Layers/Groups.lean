import Sheetwork.Vector.Group
import Sheetwork.Workbook.Sheet
/-
  Layers: dragged formulas. From each formula cell that is in no group yet a run is grown to the right and a run
  downwards; the longer one, if it has two cells or more, is a group. A formula is a dragged copy if shifting the text
  of the first gives it.
-/

namespace Sheetwork.Layers

open Text Text.Pattern

abbrev Direction := Vector.Direction

def columnMention : Pattern := cap 1 (chr '$').opt ++ cap 2 upperLetter.plus ++ ahead true digit

def rowMention : Pattern := cap 1 (chr '$').opt ++ cap 2 digit.plus

variable (formula : String)

def shiftColumns (by_ : Int) : Outcome String :=
  columnMention.replaceAllM (fun m => do
    if m.group 1 = "$" then pure m.whole
    else
      let n ← Address.columnNumber (m.group 2)
      Address.columnName (n + by_)) formula

/-- The formula with every number that no dollar sign marks moved. -/
def shiftRows (by_ : Int) : String :=
  rowMention.replaceAll (fun m =>
    if m.group 1 = "$" then m.whole
    else ofInt (natOfDigits (m.group 2).toList + by_)) formula

def columnMark : String := "\x7bcol\x7d"

def rowMark : String := "\x7brow\x7d"

def columnPattern : String := columnMention.replaceAll (fun m => m.group 1 ++ columnMark) formula

def rowPattern : String := rowMention.replaceAll (fun m => m.group 1 ++ rowMark) formula

structure Group where
  id : Nat
  direction : Direction
  cells : List Position
  (pattern sheet : String)
  isLarge : Bool

namespace Group

variable (g : Group)

def size : Nat := g.cells.length

def isHorizontal : Bool := g.direction = .horizontal

def summary : String :=
  "FormulaGroup(id=" ++ ofNat g.id ++ ", " ++ (if g.isLarge then "VECTORIZABLE" else "DRAGGED") ++
    ", dir=" ++ g.direction.name ++ ", size=" ++ ofNat g.size ++ ", pattern=" ++ take 50 g.pattern ++
    "...)"

def document : Value :=
  .record [("group_id", .ofNat g.id), ("direction", g.direction.name),
      ("cells", .list (g.cells.map fun p => .text p.address)), ("pattern", g.pattern),
      ("size", .ofNat g.size), ("sheet_name", g.sheet), ("is_vectorizable", .bool g.isLarge),
      ("repr", g.summary)]

end Group

def Direction.next : Direction → Position → Position
  | .horizontal, p => ⟨p.row, p.col + 1⟩
  | .vertical, p => ⟨p.row + 1, p.col⟩

def Direction.shift (d : Direction) (formula : String) (n : Nat) : Outcome String :=
  match d with
  | .horizontal => shiftColumns formula n
  | .vertical => .ok (shiftRows formula n)

def Direction.patternOf : Direction → String → String
  | .horizontal, f => columnPattern f
  | .vertical, f => rowPattern f

/-- The dragged copies of `formula` from `p` on, `n` steps from the first; `fuel`
bounds their number. -/
def copiesFrom (s : Sheet) (d : Direction) (formula : String) : Nat → Nat → Position → Outcome (List Position)
  | 0, _, _ => .ok []
  | fuel + 1, n, p =>
    match (s.cell p).formula? with
    | none => .ok []
    | some f => do
      if (← Direction.shift d formula n) = f then
        pure (p :: (← copiesFrom s d formula fuel (n + 1) (Direction.next d p)))
      else pure []

def runFrom (s : Sheet) (d : Direction) (p : Position) (formula : String) : Outcome (List Position) := do
  pure (p :: (← copiesFrom s d formula s.cells.size 1 (Direction.next d p)))

structure Analysis where
  /-- A group of at least so many cells is large. -/
  threshold : Value := .int 10
  groups : List Group := []
  nextId : Nat := 1

namespace Analysis

variable (a : Analysis)

def makeGroup (s : Sheet) (d : Direction) (formula : String) (run : List Position) :
    Outcome (Analysis × Option Group) := do
  if run.length < 2 then pure (a, none)
  else
    let isLarge ← (Value.ofNat run.length).ge a.threshold
    pure ({ a with nextId := a.nextId + 1 }, some ⟨a.nextId, d, run, Direction.patternOf d formula, s.name, isLarge⟩)

def better : Option Group → Option Group → Option Group
  | some h, some v => if v.size < h.size then some h else some v
  | some h, none => some h
  | none, v => v

def probe (d : Direction) (run : List Position) : Option Position := run.getLast?.map (Direction.next d)

structure Found where
  analysis : Analysis
  groups : List Group
  looked : List Position

def visit (s : Sheet) (f : Found) (p : Position) (formula : String) : Outcome Found := do
  if f.groups.any fun g => g.cells.contains p then pure f
  else
    let hRun ← runFrom s .horizontal p formula
    let (a, h) ← f.analysis.makeGroup s .horizontal formula hRun
    let vRun ← runFrom s .vertical p formula
    let (a, v) ← a.makeGroup s .vertical formula vRun
    pure
      { analysis := a
        groups := f.groups ++ (better h v).toList
        looked := f.looked ++ (probe .horizontal hRun).toList ++ (probe .vertical vRun).toList }

/-- The groups of a sheet, and the sheet with all cells that were looked at. -/
def sheet (s : Sheet) : Outcome (Analysis × Sheet × List Group) := do
  let formulas := s.entries.filterMap fun (p, c) => c.formula?.map (p, ·)
  let found ← formulas.foldlM (fun f (p, formula) => visit s f p formula) ⟨a, [], []⟩
  let looked := s.positions ++ found.looked
  pure ({ found.analysis with groups := a.groups ++ found.groups }, looked.foldl Sheet.touch s, found.groups)

def groupWithId? (id : Int) : Option Group := a.groups.find? fun g => (g.id : Int) = id

def counts : List (String × Nat) :=
  let sizes (gs : List Group) := (gs.map Group.size).sum
  let large := a.groups.filter Group.isLarge
  let horizontal := a.groups.filter Group.isHorizontal
  [("total_groups", a.groups.length), ("total_cells_in_groups", sizes a.groups),
    ("vectorizable_groups", large.length), ("vectorizable_cells", sizes large),
    ("horizontal_groups", horizontal.length),
    ("vertical_groups", a.groups.length - horizontal.length),
    ("avg_group_size", sizes a.groups / a.groups.length)]

end Analysis

end Sheetwork.Layers
