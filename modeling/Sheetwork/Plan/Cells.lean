import Sheetwork.Plan.Rows
/-
  Plans: the cells that a script works on. A value that is set is remembered even where no sheet takes it, and what is
  remembered is read before the workbook.
-/

namespace Sheetwork.Plan

/-- A cell by its sheet, row and column, wherever that may be. -/
structure Spot where
  sheet : String
  (row col : Int)
  deriving DecidableEq, Hashable

structure Cells where
  workbook : Workbook := {}
  known : Std.HashMap Spot Value := {}
  /-- Empty cells read as zero. -/
  zeros : Bool := false

namespace Cells

variable (c : Cells) (s : Spot)

def value : Outcome Value :=
  match c.known[s]? with
  | some v => .ok v
  | none => do
    let sheet ← c.workbook.sheet s.sheet
    pure (sheet.value (← positionOf s.row s.col))

def read : Outcome Value := do
  let v ← c.value s
  pure (if c.zeros && v.isNull then .int 0 else v)

/-- A cell as a number: a text counts as what it writes, and anything else as zero. -/
def number : Outcome Value := do
  pure (match ← c.read s with
    | .bool b => .int (if b then 1 else 0)
    | .int n => .int n
    | v => match v.toFloat with
      | .ok x => .float x
      | .error _ => .int 0)

def written (v : Value) : Outcome Workbook := do
  let sheet ← c.workbook.sheet s.sheet
  pure (c.workbook.putSheet (← sheet.put (← positionOf s.row s.col) v))

/-- Sets a cell, and tells whether its sheet takes the value. -/
def set (v : Value) : Cells × Outcome Unit :=
  let c := { c with known := c.known.insert s v }
  match c.written s v with
  | .ok w => ({ c with workbook := w }, .ok ())
  | .error f => (c, .error f)

def numbers (first last : Int) : List Int := (List.range (last + 1 - first).toNat).map fun (i : Nat) => first + i

def range (sheet : String) (top left bottom right : Int) : List (List Spot) :=
  (numbers top bottom).map fun r => (numbers left right).map fun c => ⟨sheet, r, c⟩

def rows (spots : List (List Spot)) : Outcome (List (List Value)) := spots.mapM (·.mapM c.read)

end Cells

end Sheetwork.Plan

/-! The tables of inputs as they are read back. Single inputs are listed with their
cells; an index says for each other input which table it is in, and the smallest row and column of
a table's inputs are where the table begins. -/

namespace Sheetwork.Plan.Tables

/-- The columns of a sheet by heading; of two with one heading the later counts. -/
def column (s : Sheet) (heading : String) (default : Nat) : Nat :=
  let cols := (List.range s.maxCol).map (· + 1)
  (cols.reverse.find? fun c => s.value ⟨1, c⟩ == .text heading).getD default

def rows (s : Sheet) : List Nat := (List.range (s.maxRow - 1)).map (· + 2)

/-- Sets a cell if there is one, and remembers the value anyway. -/
def put (c : Cells) (sheet : Value) (row col : Int) (v : Value) : Cells :=
  match sheet with
  | .text s => (c.set ⟨s, row, col⟩ v).1
  | _ => c

def putSingles (c : Cells) (s : Sheet) : Cells :=
  let source := column s "SourceSheet" 1
  let cell := column s "Cell" 2
  let value := column s "Value" 4
  (rows s).foldl (fun c r =>
    match s.value ⟨r, source⟩, s.value ⟨r, cell⟩ with
    | sheet, .text address =>
      if sheet.truthy && !address.isEmpty then
        let (row, col) := (rowCol? address).getD (1, 1)
        put c sheet row col (s.value ⟨r, value⟩)
      else c
    | _, _ => c) c

/-- An input that is in a table. -/
structure Entry where
  source : Value
  kind : String
  (row col : Int)

def entries (s : Sheet) : Outcome (List (String × Entry)) :=
  let source := column s "SourceSheet" 1
  let target := column s "TargetSheet" 2
  let kind := column s "InputType" 3
  let row := column s "Row" 5
  let col := column s "Col" 6
  (rows s).filterMapM fun r => do
    let field (c : Nat) := s.value ⟨r, c⟩
    let table := field target
    if (field source).truthy && (field row).truthy && (field col).truthy && table.truthy &&
        !(table == .text "Config") then
      let kind := if (field kind).truthy then (field kind).toText else ""
      let row ← (field row).toInt
      let col ← (field col).toInt
      pure (table.text?.map (·, ⟨field source, kind, row, col⟩))
    else pure none

def least (xs : List Int) : Int := (xs.min?).getD 0

/-- Sets the inputs of one table; in a transposed one rows and columns are exchanged. -/
def putTable (c : Cells) (s : Sheet) (es : List Entry) : Cells :=
  let transposed := es.any fun e => Text.contains "transposed" (Text.lower e.kind)
  let top := least (es.map Entry.row)
  let left := least (es.map Entry.col)
  es.foldl (fun c e =>
    let (down, across) := (e.row - top + 2, e.col - left + 2)
    match if transposed then positionOf across down else positionOf down across with
    | .ok p => put c e.source e.row e.col (s.value p)
    | .error _ => c) c

def load (c : Cells) (w : Workbook) : Outcome Cells := do
  let c := ((w.sheet? "Config").map (putSingles c)).getD c
  match w.sheet? "Index" with
  | none => pure c
  | some index =>
    let tables := bucketBy Prod.fst (← entries index)
    pure (tables.foldl (fun c (name, es) => ((w.sheet? name).map fun s => putTable c s (es.map (·.2))).getD c) c)

end Sheetwork.Plan.Tables
