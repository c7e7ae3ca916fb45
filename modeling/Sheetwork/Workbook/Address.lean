import Sheetwork.Fault
import Sheetwork.Number.Decimal
import Sheetwork.Reference.Basic
import Sheetwork.Text.Pattern
/-
  Workbooks: addresses. An address names a cell, a range, whole columns or whole rows; a position is a row and a
  column counted from one, ordered row by row.
-/

namespace Sheetwork

open Text

structure Position where
  (row col : Nat)
  deriving DecidableEq, Ord, Inhabited

variable (p : Position)

def Position.colName : String := Column.name p.col

def Position.address : String := p.colName ++ ofNat p.row

structure Area where
  (minRow minCol maxRow maxCol : Nat)

namespace Area

variable (a : Area)

def contains (p : Position) : Bool :=
  a.minRow ≤ p.row && p.row ≤ a.maxRow && a.minCol ≤ p.col && p.col ≤ a.maxCol

def corner : Position := ⟨a.minRow, a.minCol⟩

def last : Position := ⟨a.maxRow, a.maxCol⟩

def within (a b : Area) : Bool :=
  b.minRow ≤ a.minRow && a.maxRow ≤ b.maxRow && b.minCol ≤ a.minCol && a.maxCol ≤ b.maxCol

def positions : List Position :=
  (List.range (a.maxRow + 1 - a.minRow)).flatMap fun i =>
    (List.range (a.maxCol + 1 - a.minCol)).map fun j => ⟨a.minRow + i, a.minCol + j⟩

def name : String :=
  let first := a.corner.address
  let last := a.last.address
  if first = last then first else first ++ ":" ++ last

end Area

namespace Address

/-- The bounds that an address gives; columns or rows may be missing. -/
structure Bounds where
  (minCol minRow maxCol maxRow : Option Nat)

def columnPart (s : List Char) : Option (List Char) × List Char :=
  let s := match s with
    | '$' :: r => r
    | r => r
  let ls := (s.take 3).takeWhile isAsciiLetter
  (if ls.isEmpty then none else some ls, s.drop ls.length)

def rowPart (s : List Char) : Option (List Char) × List Char :=
  let s := match s with
    | '$' :: r => r
    | r => r
  let ds := s.takeWhile isDecimal
  (if ds.isEmpty then none else some ds, s.dropWhile isDecimal)

def columnOf (ls : List Char) : Nat := (Column.spelled (ls.map Char.toUpper)).toNat

variable (s : String)

/-- The bounds of an address; a range has both corners, or only columns, or only rows. -/
def bounds : Outcome Bounds :=
  let (c, r) := columnPart s.toList
  let (w, r) := rowPart r
  let col := c.map columnOf
  let row := w.map natOfDigits
  match r with
  | [] | ['\n'] => .ok ⟨col, row, col, row⟩
  | ':' :: r =>
    let (c', r) := columnPart r
    let (w', r) := rowPart r
    if r != [] && r != ['\n'] then .error .badValue
    else
      let shape := (c.isSome, w.isSome, c'.isSome, w'.isSome)
      if shape = (true, true, true, true) || shape = (true, false, true, false) ||
          shape = (false, true, false, true) then
        .ok ⟨col, row, c'.map columnOf, w'.map natOfDigits⟩
      else .error .badValue
  | _ => .error .badValue

def maxRow : Nat := 1048576

inductive Target where
  | cell (p : Position)
  | several

def target : Outcome Target := do
  let b ← bounds s
  if b.minCol.isNone && b.minRow.getD 0 = 0 && b.maxCol.isNone && b.maxRow.getD 0 = 0 then
    .error .outOfRange
  else
    match b.minRow, b.minCol with
    | some r, some c =>
      if s.toList.contains ':' then pure .several
      else if r = 0 || maxRow < r then .error .badValue
      else pure (.cell ⟨r, c⟩)
    | _, _ => pure .several

def cell (s : String) : Outcome Position := do
  match ← target s with
  | .cell p => pure p
  | .several => .error .noProperty

/-- The position of a plain address such as `B7`, letters in either case and `$` allowed. -/
def position? : Option Position :=
  match target s with
  | .ok (.cell p) => some p
  | _ => none

/-- The area of a range or of one address; the corners stand in order. -/
def area? : Option Area :=
  match bounds s with
  | .ok ⟨some c, some r, some c', some r'⟩ =>
    if 1 ≤ r && r ≤ r' && r' ≤ maxRow && c ≤ c' then some ⟨r, c, r', c'⟩ else none
  | _ => none

/-- The letters and the row of a plain address, `$` left out. -/
def split? : Option (String × Nat) :=
  let (c, r) := columnPart s.toList
  let (w, r) := rowPart r
  match c, w, r with
  | some c, some w, [] => some (String.ofList c, natOfDigits w)
  | _, _, _ => none

/-- The letters of a column number that has a name on a sheet. -/
def columnName (n : Int) : Outcome String :=
  if 1 ≤ n && n ≤ Column.last then .ok (Column.name n) else .error .badValue

def columnNumber : Outcome Nat :=
  let cs := s.toList
  if 1 ≤ cs.length && cs.length ≤ 3 && cs.all isAsciiLetter then .ok (columnOf cs)
  else .error .badValue

def areaOf (m : Text.Match) : Outcome Area := do
  let col ← columnNumber (m.group 1)
  let lastCol ← columnNumber (m.group 3)
  pure ⟨natOfDigits (m.group 2).toList, col, natOfDigits (m.group 4).toList, lastCol⟩

end Address

/-! Slots. A slot is a row and a column as they are given, which may lie outside
every sheet; a rectangle of slots goes from its least row and column to its greatest. -/

structure Slot where
  (row col : Int)
  deriving DecidableEq, Ord, Hashable

def Position.slot : Slot := ⟨p.row, p.col⟩

namespace Slot

def position (s : Slot) : Position := ⟨s.row.toNat, s.col.toNat⟩

def neighbours (s : Slot) : List Slot :=
  [⟨s.row - 1, s.col⟩, ⟨s.row + 1, s.col⟩, ⟨s.row, s.col - 1⟩, ⟨s.row, s.col + 1⟩]

def shift (s d : Slot) : Slot := ⟨s.row + d.row, s.col + d.col⟩

def address (s : Slot) : Outcome String := do
  pure ((← Address.columnName s.col) ++ ofInt s.row)

end Slot

structure SlotBox where
  (minRow minCol maxRow maxCol : Int)

namespace SlotBox

def around (slots : List Slot) : SlotBox :=
  let least (ns : List Int) := ns.min?.getD 0
  let most (ns : List Int) := ns.max?.getD 0
  let rows := slots.map Slot.row
  let cols := slots.map Slot.col
  ⟨least rows, least cols, most rows, most cols⟩

variable (b : SlotBox)

def corner : Slot := ⟨b.minRow, b.minCol⟩

def last : Slot := ⟨b.maxRow, b.maxCol⟩

def height : Nat := (b.maxRow + 1 - b.minRow).toNat

def width : Nat := (b.maxCol + 1 - b.minCol).toNat

def rows : List Int := (List.range b.height).map fun (i : Nat) => b.minRow + i

def cols : List Int := (List.range b.width).map fun (j : Nat) => b.minCol + j

def name : Outcome String := do pure ((← b.corner.address) ++ ":" ++ (← b.last.address))

end SlotBox

end Sheetwork

/-! Patches of cells. Two cells of a set belong to one patch if steps up, down,
left and right lead from one to the other inside the set. -/

namespace Sheetwork.Patches

/-- Takes from `todo` what can be reached from the queue: the cells reached, and what is left. -/
def fill (todo queue : List Slot) : List Slot × List Slot :=
  match queue with
  | [] => ([], todo)
  | p :: q =>
    if p ∈ todo then
      let rest := todo.erase p
      let (patch, left) := fill rest (q ++ p.neighbours.filter (· ∈ rest))
      (p :: patch, left)
    else fill todo q
termination_by (todo.length, queue.length)
decreasing_by
  · rename_i h
    apply Prod.Lex.left
    have := List.length_erase_of_mem h
    have := List.length_pos_of_mem h
    omega
  · apply Prod.Lex.right
    simp

/-- Begins a patch at a cell that is still to be reached. -/
def start (acc : List Slot × List (List Slot)) (p : Slot) : List Slot × List (List Slot) :=
  if p ∈ acc.1 then
    let (patch, left) := fill acc.1 [p]
    (left, acc.2 ++ [patch])
  else acc

def ofCells (cells : List Slot) : List (List Slot) := (cells.foldl start (cells, [])).2

end Sheetwork.Patches
