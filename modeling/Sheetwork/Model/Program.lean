import Sheetwork.Model.Calculation
import Sheetwork.Model.Order
/-
  Models: the program of a blueprint. Every formula becomes a function that computes its value in a context; the
  functions are listed in an order in which each comes after those it needs. Running a program puts the inputs in
  place and computes the formulas in that order.
-/

namespace Sheetwork.Model

structure Compiled where
  place : Place
  name : String
  expr : Expr
  code : String
  needs : List Place

namespace Compiled

/-- The address of a row and a column; columns below one have no letters. -/
def address (row col : Int) : String := (if 0 < col then Column.name col else "") ++ Text.ofInt row

def functionName (p : Place) : String := "calc_" ++ identifier p.sheet ++ "_" ++ identifier p.cell

def ofFormula (cells : List (String × List Node)) (p : Place) (formula : String) : Outcome Compiled := do
  let expr ← Expr.ofFormula p formula
  let code ← expr.code p
  let needed ← Model.needs cells formula p.sheet
  let needed := (needed.map fun n => Place.mk n.sheet (address n.row n.col)).filter (· ≠ p)
  pure ⟨p, functionName p, expr, code, needed⟩

end Compiled

namespace Program

def placeOf (e : Entry) : Place := ⟨e.sheet.toText, e.cell.toText⟩

variable (b : Blueprint)

def formulaEntries : List Entry :=
  b.order.flatMap fun name => (b.sortedEntries name).filter (·.formula.truthy)

def formulaText (e : Entry) : Outcome String :=
  let p := placeOf e
  match e.formula with
  | .text s =>
    if s = specialFormula then .error (p.refuse "special formula type is unsupported in Python codegen")
    else if Text.startsWith "=" s then .ok s
    else .error (p.refuse "formula text is missing or invalid")
  | _ => .error (p.refuse "formula text is missing or invalid")

def namedFailures : Nat := 50

def failureText (errors : List String) : String :=
  let more := if namedFailures < errors.length then
      ["... and " ++ Text.ofNat (errors.length - namedFailures) ++ " more"]
    else []
  "Failed to generate deterministic Python formula engine:\n" ++ Text.join "\n" (errors.take namedFailures ++ more)

variable (formulas : List (Place × Slot × String))

def cellsOf : List (String × List Node) :=
  bucketBy Node.sheet (formulas.map fun (p, s, _) => Node.mk p.sheet s.row s.col)

/-- Formulas by their places; of two in one place the later counts. -/
def table (compiled : List Compiled) : Std.HashMap Place (Nat × Compiled) :=
  compiled.zipIdx.foldl (fun m (c, i) => m.insert c.place (i, c)) ∅

def needsOf (compiled : List Compiled) : List (Place × List Place) :=
  let index := table compiled
  compiled.zipIdx.filterMap fun (c, i) => if (index[c.place]?).any (·.1 = i) then some (c.place, c.needs) else none

def ofFormulas : Outcome (List Compiled) := do
  let cells := cellsOf formulas
  let made := formulas.map fun (p, _, f) => (p, Compiled.ofFormula cells p f)
  let errors := made.filterMap fun (p, r) => match r with
    | .error f => some (p.text ++ ": " ++ f.sentence)
    | .ok _ => none
  if !errors.isEmpty then .error (.saying .noCode (failureText errors))
  let compiled := made.filterMap fun (_, r) => r.toOption
  let index := table compiled
  let found ← order (compiled.map Compiled.place) (needsOf compiled)
  pure (found.filterMap fun k => (index[k]?).map (·.2))

def ofBlueprint : Outcome (List Compiled) := do
  let es := formulaEntries b
  if es.isEmpty then .error (.saying .noCode "No formula records found in mapping report")
  ofFormulas (← es.mapM fun e => do pure (placeOf e, e.slot, ← formulaText e))

/-! The text of a program -/

def imports : List String :=
  ["xl_add", "xl_and", "xl_average", "xl_concat", "xl_div", "xl_eq", "xl_error", "xl_ge", "xl_gt", "xl_if",
    "xl_iferror", "xl_le", "xl_lt", "xl_max", "xl_min", "xl_mod", "xl_mul", "xl_ne",
    "xl_now", "xl_npv",
    "xl_or", "xl_percent", "xl_pow", "xl_ref", "xl_rounddown", "xl_roundup", "xl_sub", "xl_sum",
    "xl_sumproduct", "xl_today", "xl_uminus", "xl_uplus", "xl_month", "xl_year"]

def header : List String :=
  ["#!/usr/bin/env python3", "from __future__ import annotations", "", "import argparse",
    "from pathlib import Path", "", "from excel_pipeline.python_engine_support import (",
    "    execute_unstructured_python_engine,"] ++ imports.map (fun n => "    " ++ n ++ ",") ++ [")", ""]

def footer : List String :=
  ["def run(mapping_report_path: Path = DEFAULT_MAPPING_REPORT, inputs_path: Path = DEFAULT_INPUT, " ++
      "output_path: Path = DEFAULT_OUTPUT) -> Path:",
    "    return execute_unstructured_python_engine(",
    "        mapping_report_path=mapping_report_path,",
    "        unstructured_input_path=inputs_path,",
    "        output_path=output_path,",
    "        formula_order=FORMULA_ORDER,",
    "        formula_funcs=FORMULA_FUNCS,",
    "    )", "", "def main() -> None:", "    parser = argparse.ArgumentParser(",
    "        description=\"Run generated Python formula engine on unstructured inputs\"",
    "    )",
    "    parser.add_argument('--mapping', type=Path, default=DEFAULT_MAPPING_REPORT)",
    "    parser.add_argument('--inputs', type=Path, default=DEFAULT_INPUT)",
    "    parser.add_argument('--output', type=Path, default=DEFAULT_OUTPUT)",
    "    args = parser.parse_args()",
    "    run(mapping_report_path=args.mapping, inputs_path=args.inputs, output_path=args.output)", "",
    "if __name__ == '__main__':", "    main()"]

structure Defaults where
  (report inputs output : String)

def Defaults.lines (d : Defaults) : List String :=
  let line (name path : String) := name ++ " = Path(r\"" ++ path ++ "\")"
  [line "DEFAULT_MAPPING_REPORT" d.report, line "DEFAULT_INPUT" d.inputs, line "DEFAULT_OUTPUT" d.output]

def text (d : Defaults) (cs : List Compiled) : String :=
  let key (p : Place) := "(" ++ Text.quoted p.sheet ++ ", " ++ Text.quoted p.cell ++ ")"
  let functions := cs.flatMap fun c => ["def " ++ c.name ++ "(ctx):", "    return " ++ c.code, ""]
  let table := cs.map fun c => "    " ++ key c.place ++ ": " ++ c.name ++ ","
  let list := cs.map fun c => "    " ++ key c.place ++ ","
  Text.join "\n" (header ++ d.lines ++ [""] ++ functions ++ ["FORMULA_FUNCS = \x7b"] ++ table ++
    ["\x7d", "", "FORMULA_ORDER = ["] ++ list ++ ["]", ""] ++ footer) ++ "\n"

/-! Running -/

/-- Each place with what is computed for it: of functions with one name the last counts. -/
def effective (cs : List Compiled) : List (Place × Expr) :=
  let byName : Std.HashMap String Expr := cs.foldl (fun m c => m.insert c.name c.expr) ∅
  cs.map fun c => (c.place, (byName[c.name]?).getD c.expr)

def extents : List (String × Extent) :=
  b.order.filterMap fun name =>
    match b.entriesOf name with
    | [] => none
    | e :: es =>
      let least (f : Entry → Int) := es.foldl (fun m e => min m (f e)) (f e)
      let most (f : Entry → Int) := es.foldl (fun m e => max m (f e)) (f e)
      some (name, ⟨least Entry.row, most Entry.row, least Entry.col, most Entry.col⟩)

def step (c : Context) (f : Place × Expr) : Outcome Context := do
  let v ← f.2.eval c
  let c := f.2.refs.foldl (fun c r => c.look r.1 r.2) c
  c.set f.1.sheet f.1.cell v

/-- Computes formulas one after the other from edited inputs and stores the workbook. -/
def execute (fs : Files) (formulas : List (Place × Expr)) (report inputs output : String) : Outcome Files := do
  let b ← readReport fs report
  let o ← Overrides.ofInputs b (← fs.load inputs).dataOnly
  let r : Rebuild := { formulas := false, overrides := o }
  let start : Context := ⟨← r.workbook fs b, extents b⟩
  fs.storeIn output (← formulas.foldlM step start).workbook

/-- Runs a program; its text has to be readable as a whole. -/
def run (fs : Files) (cs : List Compiled) (report inputs output : String) : Outcome Files :=
  if cs.all fun c => c.expr.isReadable then execute fs (effective cs) report inputs output
  else .error ⟨.badScript, none⟩

end Program

def makeProgram (fs : Files) (report script inputs output : String) : Outcome (Files × List Compiled) := do
  let cs ← Program.ofBlueprint (← readReport fs report)
  let d : Program.Defaults := ⟨fs.absolute report, fs.absolute inputs, fs.absolute output⟩
  let fs ← (fs.makeFolder (Path.parent script)).writeText script (Program.text d cs)
  pure (fs, cs)

end Sheetwork.Model
