import Std.Data.TreeMap.Basic
import Sheetwork.Workbook.Address
import Sheetwork.Value.Order
import Sheetwork.Workbook.Style
/-
  Workbooks: sheets. Cells exist once they have been given or looked at; the size of a sheet is the largest row and
  column of a cell that exists, at least one.
-/

namespace Sheetwork

/-! Cells. A text of two or more characters that begins with an equals sign is a
formula unless it was stored as plain text; assigning a date brings a date format along. -/

namespace NumberFormat

def date : String := "yyyy-mm-dd"

def datetime : String := "yyyy-mm-dd h:mm:ss"

def time : String := "h:mm:ss"

def span : String := "[hh]:mm:ss"

open Text.Pattern in
/-- Quoted texts and bracketed parts, elapsed hours, minutes and seconds apart. -/
def ignored : Text.Pattern :=
  let elapsed := choice ((["h", "hh", "m", "mm", "s", "ss"]).map fun s => lit (s ++ "]"))
  (chr '"' ++ manyShort any ++ chr '"') <|> (chr '[' ++ ahead false elapsed ++ many (noneOf "]") ++ chr ']')

open Text.Pattern in
def datePart : Text.Pattern := behind false (anyOf "_\\") ++ anyOf "dmhysDMHYS"

/-- Whether the first section of a format shows a date or a time. -/
def isDate (fmt : String) : Bool :=
  let first := (Text.split ";" fmt).headD ""
  (datePart.search? (ignored.replaceAll (fun _ => "") first)).isSome

end NumberFormat

structure Cell where
  value : Value := .null
  /-- A text that begins with an equals sign and is no formula. -/
  isPlain : Bool := false
  /-- The value that a formula had when it was last computed. -/
  cached : Value := .null
  style : Style := Style.plain
  hasComment : Bool := false

instance : Inhabited Cell := ⟨{}⟩

namespace Cell

def empty : Cell := {}

def errorTexts : List String := ["#NULL!", "#DIV/0!", "#VALUE!", "#REF!", "#NAME?", "#NUM!", "#N/A"]

def isFormulaText (s : String) : Bool :=
  match s.toList with
  | '=' :: _ :: _ => true
  | _ => false

inductive Kind where
  | formula | text | error | bool | date | number
  deriving DecidableEq

def Kind.letter : Kind → String
  | formula => "f"
  | text => "s"
  | error => "e"
  | bool => "b"
  | date => "d"
  | number => "n"

variable (c : Cell)

def kind : Kind :=
  match c.value with
  | .text s =>
    if c.isPlain then .text
    else if isFormulaText s then .formula
    else if errorTexts.contains s then .error
    else .text
  | .bool _ => .bool
  | .date _ | .datetime _ | .time _ | .span _ => .date
  | _ => .number

def isFormula : Bool := c.kind = .formula

def formula? : Option String := if c.isFormula then c.value.text? else none

def bringsFormat? : Value → Option String
  | .date _ => some NumberFormat.date
  | .datetime _ => some NumberFormat.datetime
  | .time _ => some NumberFormat.time
  | .span _ => some NumberFormat.span
  | _ => none

def maxText : Nat := 32767

def isForbidden (c : Char) : Bool := c.toNat < 32 && c ≠ '\t' && c ≠ '\n' && c ≠ '\r'

def assign (v : Value) : Outcome Cell :=
  match v with
  | .list _ | .tuple _ | .keyed _ | .complex .. => .error .badValue
  | .text s =>
    let s := Text.take maxText s
    if s.toList.any isForbidden then .error ⟨.badCharacter, none⟩
    else .ok { c with value := .text s, isPlain := false, cached := .null }
  | v =>
    let style := match bringsFormat? v with
      | some f => if NumberFormat.isDate c.style.numberFormat then c.style
        else { c.style with numberFormat := f, isUnformatted := false }
      | none => c.style
    .ok { c with value := v, isPlain := false, cached := .null, style }

/-- Stores a text as plain text, even if it begins with an equals sign. -/
def plain (s : String) : Cell := { c with value := .text s, isPlain := true }

def dataOnly : Cell := if c.isFormula then { c with value := c.cached, isPlain := c.cached.isText } else c

end Cell

structure Sheet where
  name : String
  cells : Std.TreeMap Position Cell := ∅
  /-- Merged areas; only the corner of one shows and takes values. -/
  merged : List Area := []
  widths : List (String × Float) := []
  heights : List (Nat × Float) := []
  tables : List (String × String) := []
  freeze : Option String := none
  tab : Option Color := none

instance : Inhabited Sheet := ⟨{ name := "" }⟩

namespace Sheet

variable (s : Sheet) (p : Position)

def cell? : Option Cell := s.cells[p]?

def cell (s : Sheet) (p : Position) : Cell := (s.cell? p).getD {}

def value (s : Sheet) (p : Position) : Value := (s.cell p).value

def maxRow : Nat := s.cells.foldl (fun m p _ => max m p.row) 1

def maxCol : Nat := s.cells.foldl (fun m p _ => max m p.col) 1

def isEmpty (s : Sheet) : Bool := s.cells.isEmpty

def entries : List (Position × Cell) := s.cells.toList

/-- All positions up to the sheet's size row by row, none on an empty sheet. -/
def positions (s : Sheet) : List Position := if s.isEmpty then [] else Area.positions ⟨1, 1, s.maxRow, s.maxCol⟩

def isHidden : Bool := s.merged.any fun a => a.contains p && a.corner != p

def touch : Sheet :=
  if s.cells.contains p then s else { s with cells := s.cells.insert p {} }

def insert (s : Sheet) (p : Position) (c : Cell) : Sheet := { s with cells := s.cells.insert p c }

def modify (f : Cell → Cell) : Sheet := s.insert p (f (s.cell p))

/-- Assigns a value; a hidden cell takes none. -/
def put (v : Value) : Outcome Sheet :=
  if s.isHidden p then .error .noProperty
  else do pure (s.insert p (← (s.cell p).assign v))

def putAt (address : String) (v : Value) : Outcome Sheet := do
  match ← Address.target address with
  | .cell p => s.put p v
  | .several => .error .noProperty

def restyle (f : Style → Style) : Sheet := s.modify p fun c => { c with style := f c.style }

/-- The corner of an area exists, and its border takes the lines at the far end. -/
def closeCorner (a : Area) : Sheet :=
  match s.cell? a.last with
  | none => s.touch a.corner
  | some e => s.restyle a.corner fun st =>
    { st with border := { st.border with
        right := Side.join st.border.right e.style.border.right
        bottom := Side.join st.border.bottom e.style.border.bottom } }

/-- A cell that an area hides: it is empty, and the given lines go along the edges. -/
def hiddenCell (a : Area) (lines : Border) (p : Position) : Cell :=
  let border := lines.onEdges (p.row = a.minRow) (p.col = a.minCol) (p.row = a.maxRow) (p.col = a.maxCol)
  { style := { border } }

/-- Merges an area: all but its corner become empty and hidden, and the lines of the corner go
around the area. -/
def merge (a : Area) : Sheet :=
  let s := s.closeCorner a
  let lines := (s.cell a.corner).style.border
  let cells := a.positions.foldl (fun m p =>
    if p = a.corner then m else m.insert p (hiddenCell a lines p)) s.cells
  { s with cells, merged := if s.merged.any a.within then s.merged else s.merged ++ [a] }

def putWidth (col : String) (w : Float) : Sheet := { s with widths := putBy Prod.fst (col, w) s.widths }

def putHeight (row : Nat) (h : Float) : Sheet := { s with heights := putBy Prod.fst (row, h) s.heights }

def mapCells (f : Cell → Cell) : Sheet :=
  { s with cells := s.entries.foldl (fun m (p, c) => m.insert p (f c)) ∅ }

def dataOnly (s : Sheet) : Sheet := s.mapCells Cell.dataOnly

end Sheet

end Sheetwork
