import Sheetwork.Text.Basic
import Sheetwork.Text.Case
/-
  References: cells, ranges and table columns, and the names they have in a script; tables of a sheet, with their
  columns and data rows.
-/

/-! Column letters and their numbers, `A` being 1, `Z` 26 and `AA` 27. -/

namespace Sheetwork.Column

/-- The weight of a letter, `A` being 1; other characters continue the alphabet on both sides. -/
def weight (c : Char) : Int := (c.toNat : Int) - 64

/-- The number that letters spell in base 26. -/
def spelled (cs : List Char) : Int := cs.foldl (fun n c => n * 26 + weight c) 0

/-- The number of a column given by its letters, in either case. -/
def number (s : String) : Int := spelled (Text.upper s).toList

/-- The number of a column given by capitals. -/
def index (s : String) : Nat := (spelled s.toList).toNat

/-- The letters of a column number; none for zero. -/
def letters (n : Nat) : List Char := go n n []
where
  go : Nat → Nat → List Char → List Char
    | 0, _, acc => acc
    | _ + 1, 0, acc => acc
    | fuel + 1, n + 1, acc => go fuel (n / 26) (Char.ofNat (65 + n % 26) :: acc)

/-- The name of a column number, empty from zero down. -/
def name (n : Int) : String := String.ofList (letters n.toNat)

/-- The largest column number that letters are looked up for. -/
def last : Nat := 18278

end Sheetwork.Column

namespace Sheetwork

structure CellRef where
  (sheet col : String)
  row : Nat
  deriving DecidableEq, Ord, Hashable

structure RangeRef where
  (sheet col : String)
  row : Nat
  endCol : String
  endRow : Nat
  deriving DecidableEq, Ord

structure TableRef where
  (table column : String)
  deriving DecidableEq, Ord

/-- A later element of a key takes the place of an earlier one. -/
def putBy {α κ : Type} [DecidableEq κ] (key : α → κ) (a : α) : List α → List α
  | [] => [a]
  | b :: bs => if key b = key a then a :: bs else b :: putBy key a bs

namespace Ordered

variable {α : Type} [Ord α]

/-- Inserts into an ascending list without repetition. -/
def insert (x : α) : List α → List α
  | [] => [x]
  | y :: ys =>
    match compare x y with
    | .lt => x :: y :: ys
    | .eq => y :: ys
    | .gt => y :: insert x ys

/-- The elements by ascending keys; equal keys keep their order. -/
def sortOn {β : Type} (key : β → α) (xs : List β) : List β := xs.mergeSort fun a b => (compare (key a) (key b)).isLE

def ofList (xs : List α) : List α :=
  let sorted := xs.mergeSort fun a b => (compare a b).isLE
  dedup sorted
where
  dedup : List α → List α
    | [] => []
    | [x] => [x]
    | x :: y :: r => if (compare x y).isEq then dedup (y :: r) else x :: dedup (y :: r)

end Ordered

def RangeRef.cells (r : RangeRef) : List CellRef :=
  let c₁ := Column.index r.col
  let c₂ := Column.index r.endCol
  (List.range (c₂ + 1 - c₁)).flatMap fun i =>
    (List.range (r.endRow + 1 - r.row)).map fun j => ⟨r.sheet, Column.name (c₁ + i : Nat), r.row + j⟩

namespace ScriptName

def cell (sheet col row : String) : String := "s_" ++ Text.plainWord sheet ++ "_" ++ col ++ row

def range (sheet col row endCol endRow : String) : String :=
  "rng_" ++ Text.plainWord sheet ++ "_" ++ col ++ row ++ "_" ++ endCol ++ endRow

def table (table column : String) : String := "tbl_" ++ Text.plainWord table ++ "_" ++ Text.plainWord column

end ScriptName

structure Table where
  (name sheet ref : String)
  columns : List String
  (headerRow firstRow lastRow : Nat)
  (col endCol : String)
  deriving Inhabited

def Table.columnLetters? (t : Table) (column : String) : Option String :=
  (t.columns.findIdx? (· = column)).map fun i => Column.name (Column.number t.col + i)

def Table.columnCells (t : Table) (column : String) : List CellRef :=
  match t.columnLetters? column with
  | some c => (List.range (t.lastRow + 1 - t.firstRow)).map fun i => ⟨t.sheet, c, t.firstRow + i⟩
  | none => []

def tableNamed? (tables : List Table) (name : String) : Option Table := tables.find? (·.name = name)

end Sheetwork
