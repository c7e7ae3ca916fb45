import Sheetwork.Formula.Mention
/-
  Formulas: what stays the same when a formula is dragged to another cell. The drag pattern of a formula in a cell is
  its text with numbered marks for the references, and for each reference the fixed parts as they are and the free
  parts as distances from the cell.

  In the row pattern the number of the formula's own row is written as a mark wherever it follows a capital letter, so
  that formulas filled down a column agree.
-/

namespace Sheetwork.Formula

inductive Coordinate where
  | fixedCol (col : String)
  | fixedRow (row : Nat)
  | free (distance : Int)
  deriving DecidableEq

structure DragToken where
  file : Option String
  /-- The sheet, unless it is the formula's own. -/
  sheet : Option String
  (col row : Coordinate)
  (endCol endRow : Option Coordinate)
  deriving DecidableEq

structure DragPattern where
  skeleton : List Char
  tokens : List DragToken
  deriving DecidableEq

def Corner.colCoordinate (c : Corner) (col : Int) : Coordinate :=
  if c.colFixed then .fixedCol c.column else .free (Column.spelled c.col - col)

def Corner.rowCoordinate (c : Corner) (row : Int) : Coordinate :=
  if c.rowFixed then .fixedRow c.rowNumber else .free (c.rowNumber - row)

def Mention.token (sheet : String) (col row : Int) (m : Mention) : DragToken :=
  { file := m.file
    sheet := if m.sheet ≠ sheet || m.file.isSome then some m.sheet else none
    col := m.at_.colCoordinate col
    row := m.at_.rowCoordinate row
    endCol := m.last.map (·.colCoordinate col)
    endRow := m.last.map (·.rowCoordinate row) }

/-- The text with `@i` for the `i`-th reference, from position `pos` on. -/
def skeletonFrom (s : List Char) (pos i : Nat) : List Mention → List Char
  | [] => s.drop pos
  | m :: ms => (s.take m.start).drop pos ++ '@' :: Text.natL i ++ skeletonFrom s m.stop (i + 1) ms

def dragPattern (formula sheet : String) (col row : Int) : DragPattern :=
  let ms := mentions formula sheet
  ⟨skeletonFrom (body formula) 0 0 ms, ms.map (Mention.token sheet col row)⟩

def rowMark : List Char := ['\x7b', 'R', '\x7d']

/-- The text with the row marked; `after` says whether a capital stands before it. -/
def rowPatternL (row : List Char) (after : Bool) (s : List Char) : List Char :=
  match s with
  | [] => []
  | c :: r =>
    if after && Text.isDecimal c then
      let ds := (c :: r).takeWhile Text.isDecimal
      (if ds = row then rowMark else ds) ++ rowPatternL row false (r.dropWhile Text.isDecimal)
    else c :: rowPatternL row (Text.isAsciiUpper c) r
termination_by s.length
decreasing_by
  · have := (List.dropWhile_sublist Text.isDecimal (l := r)).length_le
    simp only [List.length_cons]; omega
  · simp

def rowTextPattern (formula row : String) : String := String.ofList (rowPatternL row.toList false formula.toList)

def rowPattern (formula : String) (row : Nat) : String := rowTextPattern formula (Text.ofNat row)

end Sheetwork.Formula

/-! Shifting. Free coordinates of references move by a number of rows and columns,
fixed ones stay; a reference that would leave the sheet stays as it is. -/

namespace Sheetwork.Formula

namespace Corner

def plainText (c : Corner) : List Char :=
  (if c.colFixed then ['$'] else []) ++ c.col ++ (if c.rowFixed then ['$'] else []) ++ Text.natL c.rowNumber

def moved (c : Corner) (rows cols : Int) : Int × Int :=
  (Column.number c.column + (if c.colFixed then 0 else cols), c.rowNumber + (if c.rowFixed then 0 else rows))

def shift? (c : Corner) (rows cols : Int) : Option (List Char) :=
  let (col, row) := c.moved rows cols
  if col < 1 || row < 1 then none
  else some ((if c.colFixed then ['$'] else []) ++ Column.letters col.toNat ++
    (if c.rowFixed then ['$'] else []) ++ Text.natL row.toNat)

end Corner

/-- What stands before the corners of a reference: a sheet or a workbook. -/
def Mention.qualifier (m : Mention) : List Char :=
  let corner := m.at_.plainText
  match m.last with
  | none => if corner.isSuffixOf m.raw then m.raw.take (m.raw.length - corner.length) else []
  | some _ => ((Text.cutL? corner m.raw).map (·.1)).getD []

def Mention.shift? (m : Mention) (rows cols : Int) : Option (List Char) :=
  match m.at_.shift? rows cols, m.last with
  | some a, none => some (m.qualifier ++ a)
  | some a, some e => (e.shift? rows cols).map fun b => m.qualifier ++ a ++ ':' :: b
  | none, _ => none

/-- Puts texts in the place of references; `pos` is where `s` starts. -/
def substitute (f : Mention → List Char) (pos : Nat) (s : List Char) : List Mention → List Char
  | [] => s
  | m :: ms => s.take (m.start - pos) ++ f m ++ substitute f m.stop (s.drop (m.stop - pos)) ms

def shift (formula sheet : String) (rows cols : Int) : String :=
  if rows = 0 && cols = 0 then formula
  else
    let s := body formula
    let moved := substitute (fun m => (m.shift? rows cols).getD m.raw) 0 s (mentions formula sheet)
    String.ofList (if Text.startsWith "=" formula then '=' :: moved else moved)

end Sheetwork.Formula
