import Sheetwork.Model.Reference
import Sheetwork.Value.Convert
/-
  Models: what another calculation engine answers. Its keys name a cell behind the workbook in brackets and the sheet
  in capitals; its values may be wrapped in one or two lists.
-/

namespace Sheetwork.Model.Solution

/-- The value that stands alone in one or two lists; other lists stay as they are. -/
def unwrapped (v : Value) : Value :=
  match v with
  | .list [.list [x]] => x
  | .list [x] => x
  | v => v

def sheetPart? (s : List Char) : Option String :=
  let s := if s.getLast? = some '\'' then s.dropLast else s
  if s.isEmpty || s.contains '\'' then none else some (String.ofList s)

/-- The parts of a key: the sheet as it is written, and the cell without dollar signs. -/
def parts? (key : String) : Option (String × String) := do
  let s := (Text.strip key).toList
  let s := match s with
    | '\'' :: r => r
    | r => r
  match s with
  | '[' :: r =>
    let (book, rest) := r.span (· ≠ ']')
    if book.isEmpty then none
    else do
      let (sheet, cell) ← Text.cutLast? '!' (String.ofList (rest.drop 1))
      let sheet ← sheetPart? sheet.toList
      let _ ← spot? cell.toList
      pure (sheet, Text.replace "$" "" cell)
  | _ => none

/-- The sheet and the cell of a key; sheets are found by their names in capitals. -/
def cell? (key : String) (sheets : List (String × String)) : Option (String × String) := do
  let (sheet, cell) ← parts? key
  let (_, name) ← sheets.find? (·.1 = Text.upper sheet)
  if name.isEmpty then none else pure (name, cell)

end Sheetwork.Model.Solution
