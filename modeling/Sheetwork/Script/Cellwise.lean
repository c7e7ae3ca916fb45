import Sheetwork.Workbook.Survey
/-
  Scripts: a script with one assignment for each formula cell. Inputs are read first, then builders for ranges and
  table columns are defined, then the formulas follow in an order of computation and the output workbook is written.
-/

/-! The lines of a generated script that write the output workbook, sheet by sheet
with widths, heights, merged areas, values and looks. -/

namespace Sheetwork.Script

open Text
open Text (quoted)

def fontArguments (l : Look) : List String :=
  (if l.bold then ["bold=True"] else []) ++
  (if l.italic then ["italic=True"] else []) ++
  (l.ownSize.map fun z => "size=" ++ Number.text z).toList ++
  ((Look.isNonempty l.color).map fun c => "color=" ++ quoted c).toList

def alignArguments (l : Look) : List String :=
  ((Look.isNonempty l.horizontal).map fun h => "horizontal=" ++ quoted h).toList ++
  ((Look.isNonempty l.vertical).map fun v => "vertical=" ++ quoted v).toList ++
  (if l.wrap = some true then ["wrap_text=True"] else [])

def lookLines (target : String) (l : Look) : List String :=
  let call (property head : String) (args : List String) :=
    if args.isEmpty then [] else
      [target ++ "." ++ property ++ " = " ++ head ++ "(" ++ join ", " args ++ ")"]
  (if l.numberFormat.isEmpty || l.numberFormat = "General" then []
    else [target ++ ".number_format = " ++ quoted l.numberFormat]) ++
  call "font" "Font" (fontArguments l) ++
  ((Look.isNonempty l.fill).elim [] fun c => call "fill" "PatternFill"
    ["start_color=" ++ quoted c, "end_color=" ++ quoted c, "fill_type='solid'"]) ++
  call "alignment" "Alignment" (alignArguments l)

def byRow (es : List Survey.Entry) : List Survey.Entry :=
  es.mergeSort fun a b => ((compare a.row b.row).then (Value.textOrder a.col b.col)).isLE

/-- The lines that write a sheet; `value` gives the expression of a cell. -/
def sheetLines (value : Survey.Entry → String) (p : Survey.Page) (es : List Survey.Entry) : List String :=
  let ws := "    ws_" ++ plainWord p.name
  [ws ++ " = out_wb.create_sheet(" ++ quoted p.name ++ ")"] ++
  p.widths.map (fun (k, w) => ws ++ ".column_dimensions[" ++ quoted k ++ "].width = " ++ Number.text w) ++
  p.heights.map (fun (k, h) => ws ++ ".row_dimensions[" ++ ofNat k ++ "].height = " ++ Number.text h) ++
  p.merged.map (fun m => ws ++ ".merge_cells(" ++ quoted m ++ ")") ++
  [""] ++
  (byRow es).flatMap (fun e =>
    let target := ws ++ "[" ++ quoted e.address ++ "]"
    (target ++ " = " ++ value e) :: lookLines target e.look) ++
  [""]

/-- The value that is taken when the input workbook has none. -/
def defaultLiteral (v : Value) : String :=
  match v with
  | .null | .bool _ | .int _ | .float _ | .text _ => v.literal
  | _ => "None"

/-- The cells of a page that are formulas or kept inputs. -/
def written (inputs : List Survey.Entry) (p : Survey.Page) : List Survey.Entry :=
  inputs.filter (fun e => e.sheet = p.name) ++ p.entries.filter fun e => !e.isInput

def closingLines : List String :=
  ["", "", "if __name__ == \"__main__\":", "    if len(sys.argv) < 3:",
    "        print(\"Usage: python calculate.py <input_excel> <output_excel>\")",
    "        sys.exit(1)", "    main(sys.argv[1], sys.argv[2])", ""]

def savingLines : List String := ["    out_wb.save(output_file)", "    print(f'Output saved to \x7boutput_file\x7d')"]

open Text (quoted)

def headLines (library : String) : List String :=
  ["\"\"\"", "Auto-generated Python script from Excel workbook.",
    "Reads input values from an input Excel file, performs calculations,",
    "and writes results to an output Excel file.", "", "Usage:",
    "    python calculate.py <input_excel> <output_excel>", "\"\"\"", "", "import sys", "import os",
    "import copy", "from openpyxl import Workbook, load_workbook",
    "from openpyxl.styles import Font, PatternFill, Alignment, numbers",
    "from openpyxl.utils import get_column_letter", "", "# ---- Excel helper functions ----",
    library, "", "", "def main(input_file, output_file):",
    "    \"\"\"Read inputs, compute formulas, write output.\"\"\"", "", "    # Load input workbook",
    "    inp_wb = load_workbook(input_file, data_only=True)", ""]

def variableOf (e : Survey.Entry) : String := ScriptName.cell e.sheet e.col (ofNat e.row)

/-- The line that reads an input into what stands for it, or takes its default. -/
def inputLine (mark : String) (target : Survey.Entry → String) (e : Survey.Entry) : String :=
  let ws := mark ++ plainWord e.sheet
  let value := ws ++ "[" ++ quoted e.address ++ "].value"
  "    " ++ target e ++ " = " ++ value ++ " if " ++ ws ++ " is not None and " ++ value ++
    " is not None else " ++ defaultLiteral e.value

def readingLines (mark : String) (target : Survey.Entry → String) (sheets : List String)
    (inputs : List Survey.Entry) : List String :=
  ["    # ---- Read input (hardcoded) values ----"] ++
  sheets.map (fun s => "    " ++ mark ++ plainWord s ++ " = inp_wb[" ++ quoted s ++ "] if " ++ quoted s ++
    " in inp_wb.sheetnames else None") ++
  [""] ++ inputs.map (inputLine mark target) ++ [""]

def inputLines (s : Survey) (inputs : List Survey.Entry) : List String :=
  let pages := s.pages.filter fun p => inputs.any fun e => e.sheet = p.name
  readingLines "inp_ws_" variableOf (pages.map (·.name)) inputs

variable (r : RangeRef)

def rangeName : String :=
  ScriptName.range r.sheet r.col (ofNat r.row) r.endCol (ofNat r.endRow)

def cellName (c : CellRef) : String := ScriptName.cell c.sheet c.col (ofNat c.row)

def rangeRows : List (List CellRef) :=
  let first := Column.index r.col
  (List.range (r.endRow + 1 - r.row)).map fun i =>
    (List.range (Column.index r.endCol + 1 - first)).map fun (j : Nat) => ⟨r.sheet, Column.name (first + j), r.row + i⟩

def rangeBuilder : List String :=
  ["    def _build_" ++ rangeName r ++ "():", "        rows = []"] ++
  (rangeRows r).map (fun cs => "        rows.append([" ++ join ", " (cs.map cellName) ++ "])") ++
  ["        return rows", ""]

def columnBuilder (tables : List Table) (t : TableRef) : List String :=
  match (tableNamed? tables t.table).filter fun tbl => (tbl.columnLetters? t.column).isSome with
  | none => []
  | some tbl =>
    ["    def _build_" ++ ScriptName.table t.table t.column ++ "():", "        return ["] ++
    (tbl.columnCells t.column).map (fun c => "            " ++ cellName c ++ ",") ++
    ["        ]", ""]

def builderLines (tables : List Table) (refs : References) : List String :=
  (if refs.ranges.isEmpty then []
    else "    # ---- Build range variables ----" :: refs.ranges.flatMap rangeBuilder) ++
  (if refs.tables.isEmpty then []
    else "    # ---- Build table column references ----" ::
      refs.tables.flatMap (columnBuilder tables))

/-- The lines that compute a formula: what it reads is built anew, then it is evaluated. -/
def formulaLines (tables : List String) (c : FormulaCell) : Outcome (List String) := do
  let refs ← c.references tables
  let rebuild (v : String) := "    " ++ v ++ " = _build_" ++ v ++ "()"
  let var := cellName c.ref
  pure (refs.ranges.map (fun r => rebuild (rangeName r)) ++
    refs.tables.map (fun t => rebuild (ScriptName.table t.table t.column)) ++
    ["    try:", "        " ++ var ++ " = " ++ (c.conversion tables).render, "    except Exception:",
      "        " ++ var ++ " = None"])

def cellwise (library : String) (s : Survey) (inputs : List Survey.Entry) : Outcome (List String) := do
  let refs ← References.ofCells s.tableNames s.formulas
  let order ← Formula.order s.tableNames s.formulas
  let code ← order.mapM (formulaLines s.tableNames)
  pure (headLines library ++ inputLines s inputs ++ builderLines s.tables refs ++
    ["", "    # ---- Compute formulas (in dependency order) ----"] ++ code.flatten ++
    ["", "    # ---- Write output workbook ----", "    out_wb = Workbook()",
      "    # Remove default sheet", "    if 'Sheet' in out_wb.sheetnames:",
      "        del out_wb['Sheet']", ""] ++
    s.pages.flatMap (fun p => sheetLines variableOf p (written inputs p)) ++
    savingLines ++ closingLines)

end Sheetwork.Script
