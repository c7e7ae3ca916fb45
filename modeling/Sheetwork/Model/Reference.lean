import Sheetwork.Workbook.Address
/-
  Models: references. A reference is a cell, a range, whole columns or whole rows, in capitals, with a dollar sign
  before what is fixed; a sheet name stands before it in quotes.
-/

namespace Sheetwork.Model

open Text

/-- A cell of a reference, and which of its coordinates are fixed. -/
structure Spot where
  (row col : Nat)
  (rowFixed colFixed : Bool)

def fixedMark : List Char → Bool × List Char
  | '$' :: r => (true, r)
  | r => (false, r)

def isLetters (ls : List Char) : Bool := !ls.isEmpty && ls.length ≤ 3 && ls.all isAsciiUpper

def isDigits (ds : List Char) : Bool := !ds.isEmpty && ds.all isDecimal

/-- One to three capitals and digits, each with or without a dollar sign. -/
def spot? (s : List Char) : Option Spot :=
  let (colFixed, r) := fixedMark s
  let letters := r.takeWhile isAsciiUpper
  let (rowFixed, digits) := fixedMark (r.dropWhile isAsciiUpper)
  if isLetters letters && isDigits digits then
    some ⟨natOfDigits digits, (Column.spelled letters).toNat, rowFixed, colFixed⟩
  else none

variable (s : String)

def invalid : Fault := .saying .badValue ("Invalid cell reference: " ++ s)

def spot (s : String) : Outcome Spot := (invalid s).ifNone (spot? s.toList)

def isColumn (s : List Char) : Bool := isLetters (fixedMark s).2

def isRow (s : List Char) : Bool := isDigits (fixedMark s).2

/-- Whether a text is a reference, white space around it apart. -/
def isReference : Bool :=
  let cs := stripL s.toList
  match cutL? [':'] cs with
  | none => (spot? cs).isSome
  | some (a, b) => ((spot? a).isSome && (spot? b).isSome) || (isColumn a && isColumn b) || (isRow a && isRow b)

/-- A coordinate as it is seen from another: fixed, or by its distance. -/
def coordinate (mark : String) (fixed : Bool) (n origin : Int) : String :=
  if fixed then mark ++ ofInt n else mark ++ "[" ++ ofInt (n - origin) ++ "]"

def Spot.relative (p : Spot) (row col : Int) : String :=
  coordinate "R" p.rowFixed p.row row ++ coordinate "C" p.colFixed p.col col

def relative (s : String) (row col : Int) : Outcome String := do
  pure ((← spot s).relative row col)

/-! Sheet names -/

def quotedSheet (sheet : String) : String := "'" ++ replace "'" "''" sheet ++ "'"

def unquoted : String :=
  if startsWith "'" s && endsWith "'" s then replace "''" "'" (slice 1 (s.length - 1) s)
  else s

/-- The sheet and the reference after the last exclamation mark; a workbook in brackets
is left out. -/
def splitSheet : Option String × String :=
  match cutLast? '!' s with
  | none => (none, s)
  | some (sheet, ref) =>
    let sheet := unquoted (strip sheet)
    (some ((cut? "]" sheet).elim sheet (·.2)), ref)

def cellKey (sheet : String) (row : Nat) (col : Int) : Outcome String := do
  pure (sheet ++ "!" ++ (← Address.columnName col) ++ ofNat row)

def coordinates : Outcome (Nat × Nat) :=
  match Address.split? s with
  | some (c, r) => if r = 0 then .error ⟨.badCoordinate, none⟩ else .ok (r, (Column.number c).toNat)
  | none => .error ⟨.badCoordinate, none⟩

end Sheetwork.Model
