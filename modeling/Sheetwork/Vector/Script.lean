import Sheetwork.Script.Cellwise
import Sheetwork.Vector.Report
import Sheetwork.Vector.Code
/-
  Vectors: a script that keeps all values in one store and computes each group of dragged copies in a loop.
-/

namespace Sheetwork.Vector

open Text (quoted)

def headLines (library : String) (hasFiles : Bool) : List String :=
  ["\"\"\"", "Auto-generated *vectorised* Python script from Excel workbook.", "", "Usage:",
    "    python calculate.py <input_excel> <output_excel>"] ++
  (if hasFiles then ["", "External workbook references are resolved through",
    "input_files_config.json (must sit next to this script)."] else []) ++
  ["\"\"\"", "", "import sys", "import os", "import json", "from openpyxl import Workbook, load_workbook",
    "from openpyxl.styles import Font, PatternFill, Alignment",
    "from openpyxl.utils import get_column_letter", "", "# ---- Excel helper functions ----",
    library, "",
    "def _ci(col):", "    \"\"\"Column letter → 1-based index.\"\"\"", "    r = 0",
    "    for ch in col.upper():", "        r = r * 26 + (ord(ch) - 64)", "    return r", "",
    "def _cl(idx):", "    \"\"\"1-based index → column letter.\"\"\"", "    r = \"\"",
    "    while idx > 0:", "        idx, rem = divmod(idx - 1, 26)", "        r = chr(65 + rem) + r",
    "    return r", "", "def _rng(c, sheet, c1, r1, c2, r2):",
    "    \"\"\"Build a 2-D list from the cell dict.\"\"\"",
    "    ci1, ci2 = _ci(c1) if isinstance(c1, str) else c1, _ci(c2) if isinstance(c2, str) else c2",
    "    rows = []", "    for r in range(int(r1), int(r2) + 1):",
    "        rows.append([c.get((sheet, _cl(ci), r)) for ci in range(ci1, ci2 + 1)])",
    "    return rows", ""]

def sheetsNamed (file : String) (cells : List FormulaCell) : List String :=
  let sheets := cells.flatMap fun c => (Formula.mentions c.formula c.sheet).filterMap fun m =>
    if m.file = some file then some m.sheet else none
  (sheets.eraseDups).mergeSort fun a b => (Value.textOrder a b).isLE

def fileLines (file : String) (cells : List FormulaCell) : List String :=
  ["    if " ++ quoted file ++ " in _ext_wbs:", "        _ewb = _ext_wbs[" ++ quoted file ++ "]"] ++
  (sheetsNamed file cells).flatMap (fun s =>
    ["        if " ++ quoted s ++ " in _ewb.sheetnames:", "            _ews = _ewb[" ++ quoted s ++ "]",
      "            for _row in _ews.iter_rows():", "                for _cell in _row:",
      "                    if _cell.value is not None:",
      "                        c[(" ++ quoted (file ++ "|" ++ s) ++
        ", get_column_letter(_cell.column), _cell.row)] = _cell.value"]) ++
  [""]

variable (uses : List (String × List FormulaCell))

def filesLines : List String :=
  if uses.isEmpty then [] else
    ["    # ---- Load external workbooks from config ----",
      "    _cfg_path = os.path.join(os.path.dirname(os.path.abspath(__file__)),",
      "                             'input_files_config.json')",
      "    with open(_cfg_path) as _fp:", "        _ext_cfg = json.load(_fp)",
      "    _ext_wbs = \x7b\x7d", "    for _name, _path in _ext_cfg.items():",
      "        if _path and os.path.exists(_path):",
      "            _ext_wbs[_name] = load_workbook(_path, data_only=True)", ""] ++
    uses.flatMap fun (f, cs) => fileLines f cs

def openingLines (inputs : List Survey.Entry) : List String :=
  let sheets := ((inputs.map Survey.Entry.sheet).eraseDups).mergeSort fun a b => (Value.textOrder a b).isLE
  ["def main(input_file, output_file):", "    \"\"\"Read inputs, compute formulas, write output.\"\"\"",
    "    inp_wb = load_workbook(input_file, data_only=True)", "",
    "    c = \x7b\x7d  # cell store: (sheet, col, row) → value", ""] ++
  filesLines uses ++
  Script.readingLines "_ws_" (fun e => "c[" ++ storeKey e.sheet (quoted e.col) (Text.ofNat e.row) ++ "]") sheets inputs

def storedValue (e : Survey.Entry) : String := cellRead e.sheet (quoted e.col) (Text.ofNat e.row)

def script (library : String) (s : Survey) (inputs : List Survey.Entry) : Outcome (List String) := do
  let (groups, singles) := group s.formulas
  let order ← schedule s.tableNames groups singles
  let uses := workbookUses s.formulas
  let code ← computeSection s.tables order
  pure (headLines library (!uses.isEmpty) ++ openingLines uses inputs ++ code ++
    ["", "    # ---- Write output workbook ----", "    out_wb = Workbook()",
      "    if 'Sheet' in out_wb.sheetnames:", "        del out_wb['Sheet']", ""] ++
    s.pages.flatMap (fun p => Script.sheetLines storedValue p (Script.written inputs p)) ++
    Script.savingLines ++ Script.closingLines)

end Sheetwork.Vector
