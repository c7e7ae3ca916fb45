import Sheetwork.Plan.Expression
import Sheetwork.Plan.Order
/-
  Plans: scripts made from a report. A script sets cells one by one or along a row or a column, in the order of
  evaluation, and then gives cells their look. It starts from the inputs in their places, or from the constants of the
  report and the tables of inputs.
-/

namespace Sheetwork.Plan

open Text

/-! What a script does -/

abbrev Look := Format

namespace Look

def fieldOr (r : Record) (name : String) (default : Value) : Value :=
  let v := r.get name
  if v.truthy then v else default

def ofRow (r : Record) : Look :=
  { Format.ofRow r with
    numberFormat := fieldOr r "NumberFormat" (.text "General"), size := fieldOr r "FontSize" (.int 11) }

def isPlain (l : Look) : Bool :=
  l.numberFormat == .text "General" && !l.bold && !l.italic && l.size == .int 11 && l.fillColor.isEmpty &&
    l.horizontal.isEmpty && l.vertical.isEmpty && !l.wrap

def document (l : Look) : Value :=
  .record [("nf", l.numberFormat), ("bold", .bool l.bold), ("italic", .bool l.italic), ("size", l.size),
    ("fill", l.fillColor), ("ha", l.horizontal), ("va", l.vertical),
    ("wrap", .bool l.wrap)]

/-- Gives a cell the look; a fill that is no colour leaves it as it was. -/
def apply (l : Look) (st : Style) : Outcome Style := do
  let size ← Format.sizeOf l.size
  let fill := (Format.colorDigits? l.fillColor).bind fun s => (Color.ofDigits s).toOption
  pure { st with
    numberFormat := l.numberFormat.toText, isUnformatted := false
    font := { bold := l.bold, italic := l.italic, size }
    align := ← Format.alignment l.horizontal l.vertical l.wrap
    fill := (fill.map Fill.solid).getD st.fill }

end Look

structure Placed (α : Type) where
  sheet : String
  (row col : Int)
  what : α

structure Setting where
  (sheet cell : String)
  (row col : Int)
  (formula code : String)

/-- Neighbours in a row or a column that share an expression. -/
structure Loop where
  along : Axis
  sheet : String
  /-- The row of cells in a row, the column of cells in a column. -/
  (line first last : Int)
  pattern : String
  /-- An empty formula has no code. -/
  code : Option String

inductive Statement where
  | set (s : Setting)
  | loop (l : Loop)
  | gap

/-- A script, up to where it takes its values from. -/
structure Program where
  sheets : List String
  statements : List Statement
  looks : List (Placed Look)
  /-- The constants of a script that reads tables of inputs. -/
  constants : Option (List (Placed Value))

/-! Scripts of a report -/

variable (names : List (String × String))

def setting (j : Job) : Outcome (List Statement) := do
  let row ← wholeOf j.record "Row"
  let col ← wholeOf j.record "Col"
  let formula := j.record.get "Formula"
  if !formula.truthy then pure []
  else
    let code ← expression names { sheet := j.name.sheet } formula
    let text ← Fault.wrongKind.ifNone formula.text?
    pure [.set ⟨j.name.sheet, j.name.cell, row, col, text, code⟩]

def Axis.coordinate : Axis → String
  | row => "Col"
  | col => "Row"

def Axis.shared : Axis → String
  | row => "Row"
  | col => "Col"

/-- The loop for a group: the first cell gives the expression, and the last one the end. -/
def loop (along : Axis) (js : List Job) : Outcome Loop := do
  let ordered ← js.mapM fun j => return (← wholeOf j.record along.coordinate, j)
  let ordered := ordered.mergeSort fun a b => a.1 ≤ b.1
  let (first, j) ← Fault.outOfRange.ifNone ordered.head?
  let last := (ordered.getLast?.map (·.1)).getD first
  let line ← wholeOf j.record along.shared
  let pattern ← Fault.wrongKind.ifNone ((j.record.get? "PatternFormula").getD (.text "")).text?
  let formula := j.record.get "Formula"
  let sheet := (js.head?.map (·.name.sheet)).getD ""
  let (row, col) := if along = .row then (line, first) else (first, line)
  let code ← if formula.truthy then some <$> expression names { sheet, row, col, along } formula else pure none
  pure ⟨along, sheet, line, first, last, pattern, code⟩

def statements : Step → Outcome (List Statement)
  | .cell j => setting names j
  | .group js => do
    let along := js.head?.bind fun j => Axis.ofValue? (j.record.get "GroupDirection")
    match along with
    | some a => return [.loop (← loop names a js), .gap]
    | none => return (← js.flatMapM (setting names)) ++ [.gap]

def inPlace {α : Type} (sheet : String) (r : Record) (a : α) : Outcome (Placed α) := do
  let row ← wholeOf r "Row"
  pure ⟨sheet, row, ← wholeOf r "Col", a⟩

def looks (l : Listing) : Outcome (List (Placed Look)) :=
  l.sheets.flatMapM fun (sheet, rs) =>
    ((rs.filter isIncluded).filter fun r => !(Look.ofRow r).isPlain).mapM fun r => inPlace sheet r (Look.ofRow r)

def isConstant : Value → Bool
  | .text _ | .int _ | .float _ | .bool _ => true
  | _ => false

def constants (l : Listing) : Outcome (List (Placed Value)) :=
  l.sheets.flatMapM fun (sheet, rs) =>
    (rs.filter fun r => !hasKind .calculation r && !hasKind .output r && isIncluded r &&
      isConstant (r.get "Value")).mapM fun r => inPlace sheet r (r.get "Value")

def program (l : Listing) (fromTables : Bool) : Outcome Program := do
  let steps ← evaluationOrder l.sheets
  let constants ← (if fromTables then some <$> constants l else pure none)
  let statements ← steps.flatMapM (statements l.names)
  pure { sheets := l.sheets.map (·.1), statements, looks := ← looks l, constants }

/-! Text -/

def setCode (sheet row col code : String) : String :=
  "_s(" ++ quoted sheet ++ ", " ++ row ++ ", " ++ col ++ ", " ++ code ++ ")"

/-- Sets a cell; where kinds do not fit, once more with zeros for empty cells. -/
def guarded (indent sheet row col code note : String) : List String :=
  let set := setCode sheet row col
  ["try:", "    " ++ set code, "except TypeError:", "    _NM[0] = True", "    try: " ++ set code,
    "    except Exception: " ++ set "None", "    finally: _NM[0] = False", "except Exception:",
    "    " ++ set "None" ++ note].map (indent ++ ·)

def Setting.comment (s : Setting) : String := "    # " ++ s.sheet ++ "!" ++ s.cell ++ ": " ++ take 60 s.formula

def Setting.lines (s : Setting) : List String :=
  s.comment :: guarded "    " s.sheet (ofInt s.row) (ofInt s.col) s.code "  # formula error"

namespace Loop

variable (l : Loop)

def variableName : String := if l.along = .row then "_col" else "_row"

def axisNames : String × String := if l.along = .row then ("row", "cols") else ("col", "rows")

def target : String × String :=
  if l.along = .row then (ofInt l.line, l.variableName) else (l.variableName, ofInt l.line)

def comments : List String :=
  let (own, other) := l.axisNames
  ["    # Group [" ++ l.sheet ++ "] " ++ own ++ " " ++ ofInt l.line ++ ", " ++ other ++ " " ++ ofInt l.first ++ "–" ++
      ofInt l.last ++ ": " ++ l.along.name ++ "-dragged",
    "    # Pattern: " ++ take 70 l.pattern]

def lines : List String :=
  let (row, col) := l.target
  l.comments ++ ["    for " ++ l.variableName ++ " in range(" ++ ofInt l.first ++ ", " ++ ofInt (l.last + 1) ++ "):"] ++
    (l.code.map fun c => guarded "        " l.sheet row col c "").getD []

end Loop

def Statement.lines : Statement → List String
  | set s => s.lines
  | loop l => l.lines
  | gap => [""]

def lookLines : List String :=
  ["", "# ======================================================================", "# Formatting helpers",
    "# ======================================================================", "",
    "def _apply_fmt(cell, fmt_dict):",
    "    \"\"\"Apply formatting from the mapping report to a cell.\"\"\"",
    "    cell.number_format = fmt_dict.get('nf', 'General')", "    cell.font = Font(",
    "        bold=fmt_dict.get('bold', False),", "        italic=fmt_dict.get('italic', False),",
    "        size=fmt_dict.get('size', 11),", "    )", "    ha = fmt_dict.get('ha') or None",
    "    va = fmt_dict.get('va') or None",
    "    cell.alignment = Alignment(horizontal=ha, vertical=va,",
    "                               wrap_text=fmt_dict.get('wrap', False))",
    "    fc = fmt_dict.get('fill', '')",
    "    if fc and not str(fc).startswith('theme:') and not str(fc).startswith('indexed:'):",
    "        try:",
    "            cell.fill = PatternFill(start_color=str(fc), end_color=str(fc), fill_type='solid')",
    "        except Exception:", "            pass", "", ""]

namespace Program

def constantLines (cs : List (Placed Value)) : List String :=
  let sets := cs.map fun c => "    " ++ setCode c.sheet (ofInt c.row) (ofInt c.col) c.what.literal
  ["# ======================================================================",
    "# Constant cell values (labels, headers, default inputs)",
    "# ======================================================================", "",
    "def _load_constants():",
    "    \"\"\"Populate non-formula cells from the mapping report.\"\"\""] ++
    (if sets.isEmpty then ["    pass"] else sets) ++ [""]

def placesStart (sheets : List String) : List String :=
  ["def main(input_path: str, output_path: str) -> None:", "    global _wb, _cache", "    _cache.clear()",
    "    _wb = openpyxl.load_workbook(input_path)", "", "    # Ensure all sheets exist"] ++
    (sheets.flatMap fun s =>
      ["    if " ++ quoted s ++ " not in _wb.sheetnames:", "        _wb.create_sheet(" ++ quoted s ++ ")"]) ++ [""]

def tablesStart (sheets : List String) : List String :=
  ["def main(structured_input_path: str, output_path: str) -> None:", "    global _wb, _cache", "    _cache.clear()",
    "", "    # Create a fresh workbook with all original sheets", "    _wb = openpyxl.Workbook()",
    "    _wb.remove(_wb.active)"] ++ sheets.map (fun s => "    _wb.create_sheet(" ++ quoted s ++ ")") ++
    ["", "    # Load constant values (labels, headers, default inputs)", "    _load_constants()", "",
      "    # Load structured inputs (overrides Input-type cells)",
      "    _load_structured_input(structured_input_path)", ""]

def lookLine (l : Placed Look) : String :=
  "    _apply_fmt(_wb[" ++ quoted l.sheet ++ "].cell(row=" ++ ofInt l.row ++ ", column=" ++ ofInt l.col ++ "), " ++
    l.what.document.literal ++ ")"

def lastLines (input : String) : List String :=
  ["", "    _wb.save(output_path)", "    print(f'✓ Output written to \x7boutput_path\x7d')", "", "",
    "if __name__ == '__main__':", "    import sys",
    "    inp = sys.argv[1] if len(sys.argv) > 1 else '" ++ input ++ "'",
    "    out = sys.argv[2] if len(sys.argv) > 2 else 'output.xlsx'", "    main(inp, out)", ""]

def text (helpers loader : String) (p : Program) : String :=
  let start := match p.constants with
    | none => [helpers] ++ lookLines ++ placesStart p.sheets
    | some cs => [helpers, loader] ++ constantLines cs ++ lookLines ++ tablesStart p.sheets
  let input := if p.constants.isNone then "unstructured_inputs.xlsx" else "structured_input.xlsx"
  "\n".intercalate (start ++ ["    # === Evaluate formulas in topological order ===", ""] ++
    p.statements.flatMap Statement.lines ++ ["", "    # === Apply formatting ==="] ++ p.looks.map lookLine ++
    lastLines input)

end Program

/-! Writing -/

def scriptName (fromTables : Bool) : String :=
  if fromTables then "structured_calculate.py" else "unstructured_calculate.py"

def makeScript (helpers loader : String) (fs : Files) (report folder : String) (fromTables : Bool) :
    Outcome (Made × Program) := do
  let fs := fs.makeFolder folder
  let p ← program (← readListing fs report) fromTables
  let path := Path.join folder (scriptName fromTables)
  pure (⟨← fs.writeText path (p.text helpers loader), path, ["  → " ++ path]⟩, p)

end Sheetwork.Plan
