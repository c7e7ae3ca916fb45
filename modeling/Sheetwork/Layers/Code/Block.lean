import Sheetwork.Layers.Code.Entry
import Sheetwork.Layers.Code.Expression
import Sheetwork.Layers.Naming
/-
  Layers: the parts of a script that compute a group: a loop over its rows or columns, or a frame of whole columns.
-/

namespace Sheetwork.Layers.Code

open Text Text.Pattern

inductive Block where
  | cell (statement : String)
  /-- One statement for each row from `first` to before `stop`. -/
  | rows (title : String) (first stop : Nat) (statement : String)
  | columns (title : String) (names : List String) (statement : String)
  /-- A computation on whole columns. -/
  | frame (lines : List String)

namespace Block

def bracketed (names : List String) : String := "[" ++ join ", " (names.map fun n => "'" ++ n ++ "'") ++ "]"

def lines : Block → List String
  | cell s => [s, ""]
  | rows title first stop s => [title, "for r in range(" ++ ofNat first ++ ", " ++ ofNat stop ++ "):", "    " ++ s, ""]
  | columns title names s => [title, "for col in " ++ bracketed names ++ ":", "    " ++ s, ""]
  | frame ls => ls ++ [""]

/-! Places of a group -/

def columnOf (cell : String) : String := (((cellForm 1).begin? cell).map (·.group 1)).getD cell

def rowOf (cell : String) : Nat := (((cellForm 1).begin? cell).map fun m => natOfDigits (m.group 2).toList).getD 0

variable (cells : List String)

def rowRange : Outcome (Nat × Nat) :=
  match cells.map rowOf with
  | [] => .error .badValue
  | r :: rs => .ok (rs.foldl min r, rs.foldl max r)

/-- The least and the greatest column letters as texts; there has to be a cell. -/
def columnRange : Outcome (String × String) :=
  match cells.map columnOf with
  | [] => .error .badValue
  | c :: cs => .ok (cs.foldl (fun m x => if x < m then x else m) c, cs.foldl (fun m x => if m < x then x else m) c)

def columnNames : Outcome (List String) := do
  let (first, last) ← columnRange cells
  let a ← Address.columnNumber first
  let b ← Address.columnNumber last
  pure ((List.range (b + 1 - a)).map fun (i : Nat) => Column.name (a + i : Nat))

def variableName (sheet : String) : String :=
  let s := (sheet.toList.map fun c => if isPlain c || c = '_' then c else '_')
  match s with
  | c :: _ => String.ofList (if isAsciiDigit c then '_' :: s else s)
  | [] => ""

/-! Blocks of a group -/

variable (g : Drag)

def title (start note : String) : String :=
  "# " ++ start ++ " " ++ ofInt g.id ++ ": " ++ ofNat g.cells.length ++ " cells" ++ note

def target (sheet col row : String) : String := "c[('" ++ sheet ++ "', " ++ col ++ ", " ++ row ++ ")]"

def firstCell : Outcome String := Fault.outOfRange.ifNone g.cells.head?

/-- A loop over the columns: the formula of the first with its letters replaced by the variable. -/
def overColumns (pattern head : String) : Outcome Block := do
  let row := rowOf (← firstCell g)
  let names ← columnNames g.cells
  let first ← Fault.outOfRange.ifNone names.head?
  let expr ← expressionOf (replace "\x7bcol\x7d" first pattern) g.sheet false
  let expr := replace ("'" ++ first ++ "'") "col" expr
  pure (columns head names (target g.sheet "col" (ofNat row) ++ " = " ++ expr))

/-- A loop over the rows: the formula of the first with its number replaced by the variable. -/
def overRows (pattern head : String) : Outcome Block := do
  let col := columnOf (← firstCell g)
  let (first, last) ← rowRange g.cells
  let expr ← expressionOf (replace "\x7brow\x7d" (ofNat first) pattern) g.sheet false
  let expr := replace (", " ++ ofNat first ++ ")") ", r)" expr
  pure (rows head first (last + 1) (target g.sheet ("'" ++ col ++ "'") "r" ++ " = " ++ expr))

def isVertical : Bool := g.direction == .text "vertical"

def loop (g : Drag) (pattern : String) : Outcome Block :=
  let head := title g "Group" " (loop)"
  if isVertical g then overRows g pattern head else overColumns g pattern head

def wholeColumns (pattern note : String) : Outcome Block := do
  let col := columnOf (← firstCell g)
  let (first, last) ← rowRange g.cells
  let span := "range(" ++ ofNat first ++ ", " ++ ofNat (last + 1) ++ ")"
  let name := "df_" ++ variableName g.sheet
  let expr ← expressionOf pattern g.sheet true
  pure (frame ([title g "Vectorized group" note, name ++ " = pd.DataFrame(\x7b"] ++
      ((neededColumns pattern).map fun d =>
        "    '" ++ d ++ "': [c.get(('" ++ g.sheet ++ "', '" ++ d ++ "', r), 0) for r in " ++ span ++ "],") ++
      ["\x7d, index=" ++ span ++ ")", name ++ "['" ++ col ++ "'] = " ++ expr, "for r in " ++ name ++ ".index:",
        "    " ++ target g.sheet ("'" ++ col ++ "'") "r" ++ " = " ++ name ++ ".loc[r, '" ++ col ++ "']"]))

/-- The block of a group, by how hard its pattern is. -/
def ofDrag : Outcome Block := do
  let pattern ← Fault.noProperty.ifNone g.pattern.text?
  if g.isLarge ≠ some true then loop g pattern
  else match complexity pattern with
    | .simple =>
      if !isVertical g then overColumns g pattern (title g "Vectorized group" " (horizontal)")
      else if (neededColumns pattern).isEmpty then do
        let _ ← firstCell g
        loop g pattern
      else wholeColumns g pattern ""
    | .moderate =>
      if contains "IF(" pattern then wholeColumns g pattern " (conditional)" else loop g pattern
    | .complex => loop g pattern

end Block

end Sheetwork.Layers.Code
