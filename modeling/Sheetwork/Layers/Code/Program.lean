import Sheetwork.Layers.Code.Block
import Sheetwork.Layers.Code.Library
import Sheetwork.Layers.Code.Order
import Sheetwork.Layers.Report
/-
  Layers: the script of a report, as blocks in order of computation. The script is written as text; run, it loads the
  inputs into a store by sheet, column and row, computes every block and writes the store to a workbook.
-/

namespace Sheetwork.Layers.Code

open Text Script

structure Program where
  blocks : List Block

namespace Program

/-! Making -/

variable (s : Schedule)

def addNode (sheet address : String) (group : Option Int) (formula : Value) : Outcome Schedule := do
  let s := s.addCell sheet address group
  if formula.truthy then
    let f ← Fault.wrongKind.ifNone formula.text?
    pure ((needs f sheet).foldl (fun (s : Schedule) n =>
      s.addDependency sheet address n.sheet (n.col ++ ofNat n.row)) s)
  else pure s

def addDrag (g : Drag) : Outcome Schedule :=
  match g.cells with
  | [] => .ok s
  | first :: _ => addNode s g.sheet first (some g.id) g.pattern

def addEntry (e : Entry) : Outcome Schedule := do
  addNode s e.sheet (← e.cellText) e.groupId e.formula

def cellBlock (singles : List Entry) (sheet address : String) : Outcome (Option Block) := do
  match singles.find? fun e => e.sheet = sheet && e.cell == .text address with
  | some e =>
    if e.formula.truthy then
      let f ← Fault.noProperty.ifNone e.formula.text?
      let expr ← expressionOf f sheet false
      pure (((Pattern.cellForm 1).begin? address).map fun m =>
        .cell (Block.target sheet ("'" ++ m.group 1 ++ "'") (m.group 2) ++ " = " ++ expr))
    else pure none
  | none => pure none

def groupIds (order : List Node) : List Int :=
  order.filterMap fun n => match n with
    | .group id => some id
    | .cell .. => none

def cellPlaces (order : List Node) : List (String × String) :=
  order.filterMap fun n => match n with
    | .group _ => none
    | .cell s a => some (s, a)

def ofEntries (es : List Entry) : Outcome Program := do
  let drags ← Drag.ofReport es
  let large := drags.filter fun g => g.isLarge = some true
  let isLarge (e : Entry) := match e.group? with
    | some id => large.any fun g => g.id = id
    | none => false
  let singles := (← (es.filter fun e => !isLarge e).mapM Entry.expand).flatten
  let s ← large.foldlM addDrag ({} : Schedule)
  let s ← singles.foldlM addEntry s
  let order ← s.sort
  let _ ← s.counts
  let groups ← (groupIds order).mapM fun id =>
    match drags.find? fun g => g.id = id with
    | some g => some <$> Block.ofDrag g
    | none => pure none
  let cells ← (cellPlaces order).mapM fun (sheet, address) => cellBlock singles sheet address
  pure ⟨groups.filterMap id ++ cells.filterMap id⟩

/-! Text -/

def opening : List String :=
  ["#!/usr/bin/env python3", "\"\"\"", "Auto-generated by Layer 4a: Python Code Generator",
    "DO NOT EDIT - Regenerate from mapping_report.xlsx", "", "Generated: " ++ Report.stamp, "",
    "Usage: python unstructured_calculate.py", "\"\"\"", "", "import pandas as pd",
    "import numpy as np", "from openpyxl import load_workbook, Workbook",
    "from openpyxl.styles import Font, PatternFill, Alignment",
    "from openpyxl.utils import get_column_letter", "from datetime import datetime, date",
    "import math", "", "# ========== HELPER FUNCTIONS ==========", ""]

def loading : List String :=
  ["", "def load_inputs(input_path):", "    \"\"\"Load input values from Excel file.\"\"\"",
    "    print(f\"Loading inputs from \x7binput_path\x7d...\")",
    "    c = \x7b\x7d  # Cell store: (sheet, column, row) -> value", "",
    "    wb_input = load_workbook(input_path, data_only=True)", "",
    "    for sheet in wb_input.worksheets:", "        for row in sheet.iter_rows():",
    "            for cell in row:", "                if cell.value is not None:",
    "                    c[(sheet.title, cell.column_letter, cell.row)] = cell.value", "",
    "    print(f\"  Loaded \x7blen(c)\x7d input cells\")", "    return c", ""]

def calculating : List String :=
  ["def calculate(c):", "    \"\"\"Perform all calculations.\"\"\"", "    print(\"Calculating formulas...\")", ""]

def closing : List String :=
  ["def write_output(c, output_path):", "    \"\"\"Write calculated values to output Excel file.\"\"\"",
    "    print(f\"Writing output to \x7boutput_path\x7d...\")", "", "    wb_out = Workbook()",
    "    if 'Sheet' in wb_out.sheetnames:", "        wb_out.remove(wb_out['Sheet'])", "",
    "    # Group cells by sheet", "    cells_by_sheet = \x7b\x7d",
    "    for (sheet, col, row), value in c.items():", "        if sheet not in cells_by_sheet:",
    "            cells_by_sheet[sheet] = []",
    "        cells_by_sheet[sheet].append((col, row, value))", "",
    "    # Create sheets and write cells",
    "    for sheet_name, sheet_cells in cells_by_sheet.items():",
    "        ws = wb_out.create_sheet(title=sheet_name)", "",
    "        for col, row, value in sheet_cells:",
    "            cell = ws[f'\x7bcol\x7d\x7brow\x7d']",
    "            cell.value = value", "", "            # TODO: Apply formatting from metadata", "",
    "    wb_out.save(output_path)",
    "    print(f\"  Wrote \x7blen(c)\x7d cells to \x7boutput_path\x7d\")", "", "",
    "# ========== MAIN ==========", "", "def main():", "    \"\"\"Main execution function.\"\"\"",
    "    print(\"=\" * 60)", "    print(\"Excel-to-Python: Unstructured Calculator\")",
    "    print(\"=\" * 60)", "", "    # Load inputs",
    "    c = load_inputs(\"unstructured_inputs.xlsx\")", "", "    # Calculate formulas",
    "    calculate(c)", "", "    # Write output", "    write_output(c, \"output.xlsx\")", "",
    "    print(\"=\" * 60)", "    print(f\"Done! Calculated \x7blen(c)\x7d cells.\")",
    "    print(\"=\" * 60)", "", "", "if __name__ == \"__main__\":", "    main()", ""]

def text (library : String) (p : Program) : String :=
  let body := p.blocks.flatMap fun b => b.lines.map fun l => if l = "" then "" else "    " ++ l
  let body := if p.blocks.isEmpty then [] else calculating ++ body
  String.join ((opening ++ library :: loading ++ body ++ closing).map (· ++ "\n"))

/-! Running -/

/-- The store: values by sheet, column and row, in order of first writing. -/
abbrev Store := List (Value × Value)

variable (c : Store)

def Store.put (k v : Value) : Store :=
  if c.any (·.1 == k) then c.map fun e => if e.1 == k then (e.1, v) else e else c ++ [(k, v)]

def Store.get (k default : Value) : Value := ((c.find? (·.1 == k)).map (·.2)).getD default

def scope : Scope where
  value? := fun _ => none
  function? := fun name =>
    if name = "c.get" then some fun args =>
      match args with
      | [k] => .ok (c.get k .null)
      | [k, d] => .ok (c.get k d)
      | _ => .error .wrongKind
    else Library.function? name

structure Statement where
  (key expr : Expr)

def sides (ts : List Token) : List (List Token) :=
  ts.foldr (fun t parts =>
    match parts with
    | p :: r => if t.isMark "=" then [] :: p :: r else (t :: p) :: r
    | [] => [[t]]) [[]]

/-- Reads `c[key] = expr`; names may stand between the place and the value. -/
def Statement.ofText? (s : String) : Option Statement := do
  let ts ← Token.scan? s
  match ← (sides ts).mapM Expr.ofTokens? with
  | .item (.name "c") key :: rest =>
    let expr ← rest.getLast?
    let isName (e : Expr) := match e with
      | .name _ => true
      | _ => false
    if rest.dropLast.all isName then some ⟨key, expr⟩ else none
  | _ => none

def Statement.run (st : Statement) (sc : Scope → Scope) (c : Store) : Outcome Store := do
  let sc := sc (scope c)
  let v ← st.expr.eval sc
  let k ← st.key.eval sc
  pure (Store.put c k v)

def steps? : Block → Option (List (Statement × (Scope → Scope)))
  | .cell s => do
    let st ← Statement.ofText? s
    some [(st, id)]
  | .rows _ first stop s => do
    let st ← Statement.ofText? s
    some ((List.range (stop - first)).map fun (i : Nat) => (st, fun sc => sc.bind "r" (.ofNat (first + i))))
  | .columns _ names s => do
    let st ← Statement.ofText? s
    some (names.map fun n => (st, fun sc => sc.bind "col" (.text n)))
  | .frame _ => none

def storeOf (w : Workbook) : Store :=
  w.sheets.flatMap fun s => s.entries.filterMap fun (p, c) =>
    if c.value.isNull then none
    else some (.tuple [s.name, p.colName, .ofNat p.row], c.value)

def sheetOf (e : Value × Value) : Option String :=
  match e.1 with
  | .tuple (.text sheet :: _) => some sheet
  | _ => none

def writeEntry (s : Sheet) (e : Value × Value) : Outcome Sheet :=
  match e.1 with
  | .tuple [_, .text col, row] => s.putAt (col ++ row.toText) e.2
  | _ => .error .badValue

def workbookOf : Outcome Workbook :=
  (bucketBy sheetOf c).foldlM (fun (w : Workbook) (name, es) => do
    let name ← Fault.badValue.ifNone name
    Workbook.checkTitle name
    pure (w.append (← es.foldlM writeEntry { name }))) {}

/-- Runs a script on a workbook of inputs. It fails as a whole if a part of it cannot be read, and
without any part. -/
def run (p : Program) (inputs : Workbook) : Outcome Workbook := do
  if p.blocks.isEmpty then .error ⟨.unknownName, none⟩
  else
    let steps ← Fault.badValue.ifNone (p.blocks.mapM steps?)
    let c ← steps.flatten.foldlM (fun c (st, sc) => st.run sc c) (storeOf inputs.dataOnly)
    workbookOf c

end Program

def makeProgram (fs : Files) (report : String) : Outcome Program := do
  Program.ofEntries (← Entry.ofReport (← fs.load report).dataOnly)

def writeProgram (library : String) (fs : Files) (report target : String) : Outcome (Files × Program) := do
  let p ← makeProgram fs report
  pure (← fs.writeText target (p.text library), p)

end Sheetwork.Layers.Code
