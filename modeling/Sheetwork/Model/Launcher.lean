import Sheetwork.Command.Run
import Sheetwork.Model.Program
/-
  Models: small scripts that start a calculation. Each names a report, inputs and an output that it takes unless its
  arguments name others.
-/

namespace Sheetwork.Model

open Command

inductive Launcher where
  | inputs
  /-- From unstructured inputs, named for the grouped calculation. -/
  | grouped | structured
  /-- From unstructured inputs, with the folder in which the library is found. -/
  | standalone (library : String)

namespace Launcher

def moduleName : Launcher → String
  | grouped => "excel_pipeline.vectorized_runtime"
  | _ => "excel_pipeline.runtime"

def function : Launcher → String
  | inputs | standalone _ => "run_unstructured_calculation"
  | grouped => "run_unstructured_calculation_vectorized"
  | structured => "run_structured_calculation"

def inputName : Launcher → String
  | structured => "structured_input_path"
  | _ => "unstructured_input_path"

def folderLines : Launcher → List String
  | standalone library =>
    ["CODEX_ROOT = Path(r\"" ++ library ++ "\")", "if str(CODEX_ROOT) not in sys.path:",
      "    sys.path.insert(0, str(CODEX_ROOT))", ""]
  | _ => []

def usageLines : Launcher → List String
  | inputs => ["    parser = argparse.ArgumentParser(description=\"Rebuild output workbook from unstructured inputs\")"]
  | structured =>
    ["    parser = argparse.ArgumentParser(description=\"Rebuild output workbook from structured inputs\")"]
  | grouped =>
    ["    parser = argparse.ArgumentParser(",
      "        description=\"Rebuild output workbook from unstructured inputs " ++
        "using vectorized grouped calculations\"", "    )"]
  | standalone _ =>
    ["    parser = argparse.ArgumentParser(",
      "        description=\"Rebuild output workbook from unstructured inputs\"", "    )"]

variable (l : Launcher)

def text (d : Program.Defaults) : String :=
  let system := match l with
    | standalone _ => ["import sys"]
    | _ => []
  Run.text (["#!/usr/bin/env python3", "from __future__ import annotations", "", "import argparse"] ++
    system ++ ["from pathlib import Path", ""] ++ l.folderLines ++
    ["from " ++ l.moduleName ++ " import " ++ l.function, ""] ++ d.lines ++
    ["", "", "def main() -> None:"] ++ l.usageLines ++
    ["    parser.add_argument(\"--inputs\", type=Path, default=DEFAULT_INPUT)",
      "    parser.add_argument(\"--mapping\", type=Path, default=DEFAULT_MAPPING_REPORT)",
      "    parser.add_argument(\"--output\", type=Path, default=DEFAULT_OUTPUT)",
      "    args = parser.parse_args()", "", "    " ++ l.function ++ "(",
      "        mapping_report_path=args.mapping,", "        " ++ l.inputName ++ "=args.inputs,",
      "        output_path=args.output,", "    )", "", "", "if __name__ == \"__main__\":",
      "    main()"])

def write (fs : Files) (script : String) (d : Program.Defaults) : Outcome Files :=
  let d : Program.Defaults := ⟨fs.absolute d.report, fs.absolute d.inputs, fs.absolute d.output⟩
  (fs.makeFolder (Path.parent script)).writeText script (l.text d)

def calculate (fs : Files) (d : Program.Defaults) : Outcome Files :=
  match l with
  | structured => calculateStructured fs d.report d.inputs d.output
  | _ => Model.calculate fs d.report d.inputs d.output

def usage : Usage :=
  { switches :=
    [{ name := "--inputs" }, { name := "--mapping" },
      { name := "--output" }] }

def named (d : Program.Defaults) (argv : List String) : Except Refusal Program.Defaults := do
  let a ← usage.parse argv
  pure ⟨a.get "--mapping" d.report, a.get "--inputs" d.inputs,
    a.get "--output" d.output⟩

def run (fs : Files) (d : Program.Defaults) (argv : List String) : Outcome Finish :=
  match named d argv with
  | .error r => .ok { exit := r.exit, files := fs }
  | .ok d => do pure { files := ← l.calculate fs d }

end Launcher

end Sheetwork.Model
