import Sheetwork.Command.Run
import Sheetwork.Layers.Code.Program
import Sheetwork.Layers.Inputs
/-
  Layers: the command lines. One writes the report of a workbook, one takes a workbook through all layers, one does so
  for a single sheet with the others frozen, and one writes the script of a report.
-/

namespace Sheetwork.Layers

open Command Path

namespace Commands

def line : String := Text.times 70 "="

variable (library : String) (fs : Files)

def finish (exit : Int) (lines : List String) : Finish := { exit, output := Run.text lines, files := fs }

def runScript (folder : String) (p : Code.Program) : Option Files :=
  let made := do
    let inputs ← fs.load (folder ++ "/unstructured_inputs.xlsx")
    fs.store (folder ++ "/output.xlsx") (← p.run inputs)
  made.toOption

/-! Report -/

def reportUsage : Usage :=
  { switches :=
    [{ name := "--input", required := true }, { name := "--output" },
      { name := "--output-dir" }, { name := "--layer", allowed := ["1", "2", "3"], isNumber := true },
      { name := "--config" },
      { name := "--log-level", allowed := ["DEBUG", "INFO", "WARNING", "ERROR"] }] }

variable (argv : List String)

/-- Writes the report of a workbook; a fault only sets the exit code. -/
def report : Finish :=
  match reportUsage.parse argv with
  | .error r => finish fs r.exit []
  | .ok a =>
    let config := a.get "--config" "config.yaml"
    let (settings, said) := match Settings.load fs config with
      | .ok s => (s, [])
      | .error _ => ({}, ["Warning: Config file not found: " ++ config ++ ", using defaults"])
    let fs := if settings.logFile.truthy then Settings.openLog fs settings.logFile.toText else fs
    let input := a.get "--input" ""
    let target := ((a.value? "--output").filter (· ≠ "")).getD "mapping_report.xlsx"
    let layer := (a.value? "--layer").bind Number.int?
    if fs.isThere input && layer = some 1 then
      match makeReport settings fs (tidy input) target with
      | .ok fs => finish fs 0 said
      | .error _ => finish fs 1 said
    else finish fs 1 said

/-! All layers -/

def stage (path : String) : String := "      0.0s  →  " ++ path

def all (input : String) : Outcome Finish := do
  if !fs.isThere input then pure (finish fs 1 ["Error: File not found: " ++ input])
  else
    let folder := under "output" (stem input)
    let settings := Settings.orLoad {} fs "config.yaml"
    let fs := Settings.openLog (fs.makeFolder folder) (folder ++ "/pipeline.log")
    let report := folder ++ "/mapping_report.xlsx"
    let inputs := folder ++ "/unstructured_inputs.xlsx"
    let script := folder ++ "/unstructured_calculate.py"
    let fs ← makeReport settings fs (tidy input) report
    let fs ← makeInputs fs report inputs
    let (fs, p) ← Code.writeProgram library fs report script
    let said :=
      [line, "Excel-to-Python Pipeline", "Input:  " ++ input, "Output: " ++ folder ++ "/", line,
        "\n[1/4] Layer 1: Mapping report...", stage report,
        "\n[2/4] Layer 2a: Unstructured inputs...", stage inputs,
        "\n[3/4] Layer 4a: Generating calculation script...", stage script,
        "\n[4/4] Running generated script → output.xlsx..."]
    match runScript fs folder p with
    | none => pure (finish fs 1 (said ++ ["      ERROR running generated script:", "failed"]))
    | some fs =>
      pure (finish fs 0 (said ++ [stage (folder ++ "/output.xlsx"), "\n" ++ line,
          "Done in 0.0s  |  Artifacts in " ++ folder ++ "/",
          "  mapping_report.xlsx        cell metadata & classifications",
          "  unstructured_inputs.xlsx   input values template",
          "  unstructured_calculate.py  generated Python calculation script",
          "  output.xlsx                fully populated Excel output", line]))

/-! One sheet -/

def sheetUsage : List String :=
  ["Usage: python run_this_onesheet.py <excel_file> <sheet_name>", "", "Examples:",
    "  python run_this_onesheet.py ExcelFiles/Indigo.xlsx \"P&L\"",
    "  python run_this_onesheet.py ExcelFiles/ACC-Ltd.xlsx \"Balance Sheet\""]

/-- The folder, the workbook with the other sheets frozen and what is made of it, as far as it goes:
the files made up to a fault stay. -/
def sheetStages (settings : Settings) (fs : Files) (input sheet folder : String) : Files × Outcome Code.Program :=
  let frozen := folder ++ "/intermediate/frozen_workbook.xlsx"
  let report := folder ++ "/mapping_report.xlsx"
  match freeze fs input sheet frozen with
  | .error f => (fs, .error f)
  | .ok (fs, _) =>
    match makeReport settings fs frozen report with
    | .error f => (fs, .error f)
    | .ok fs =>
      match makeInputs fs report (folder ++ "/unstructured_inputs.xlsx") with
      | .error f => (fs, .error f)
      | .ok fs =>
        match Code.writeProgram library fs report (folder ++ "/unstructured_calculate.py") with
        | .error f => (fs, .error f)
        | .ok (fs, p) => (fs, .ok p)

def isStated (f : Fault) : Bool :=
  match f.cause with
  | .badValue | .notListed _ | .missingFile => true
  | _ => false

def runSheet (input sheet : String) : Outcome Finish := do
  let folder := under "output" (stem input ++ "_" ++ safeName sheet)
  let fs := Settings.openLog (fs.makeFolder (folder ++ "/intermediate")) (folder ++ "/pipeline.log")
  let settings := Settings.orLoad {} fs "config.yaml"
  let said :=
    ["Checking available sheets...", line,
      "Excel-to-Python Pipeline  (single sheet, cross-sheet refs preserved)", "Input:  " ++ input,
      "Sheet:  " ++ sheet, "Output: " ++ folder ++ "/", line]
  match sheetStages library settings fs (tidy input) sheet folder with
  | (fs, .error f) =>
    if isStated f then pure (finish fs 1 (said ++ ["\nError: " ++ f.sentence])) else .error f
  | (fs, .ok p) =>
    match runScript fs folder p with
    | none => pure (finish fs 1 (said ++ ["\nPipeline error: unstructured_calculate.py exited with code 1.", "failed"]))
    | some fs =>
      pure (finish fs 0 (said ++ ["", line, "Done in 0.0s  |  Artifacts in " ++ folder ++ "/", "",
          "  intermediate/frozen_workbook.xlsx  other sheets hardcoded to cached values",
          "  mapping_report.xlsx                cell metadata & classifications",
          "  unstructured_inputs.xlsx           inputs + frozen cross-sheet values",
          "  unstructured_calculate.py          generated Python calculation script",
          "  output.xlsx                        fully populated Excel output", line]))

def oneSheet : Outcome Finish := do
  match argv with
  | [input, sheet] =>
    if !fs.isThere input then pure (finish fs 1 ["Error: File not found: " ++ input])
    else if Text.lower (suffix input) = ".xls" then
      pure (finish fs 1 ["Error: .xls format is not supported (openpyxl requires .xlsx).",
        "Open the file in Excel and save as .xlsx first."])
    else
      let names := (← fs.load (tidy input)).sheetNames
      if names.contains sheet then runSheet library fs input sheet
      else
        pure (finish fs 1 (["Checking available sheets...", "Error: Sheet '" ++ sheet ++ "' not found in " ++ input,
          "Available sheets (" ++ Text.ofNat names.length ++ "):"] ++ names.map ("  • " ++ ·)))
  | _ => pure (finish fs 1 sheetUsage)

/-! Script -/

def scriptUsage : List String :=
  ["Layer 4a: Python Code Generator", "", "Usage:",
    "  python -m excel_pipeline.layer4a <mapping_report.xlsx> <unstructured_inputs.xlsx> [output_script.py]",
    "", "Arguments:", "  mapping_report.xlsx       Path to mapping report from Layer 1",
    "  unstructured_inputs.xlsx  Path to unstructured inputs from Layer 2a",
    "  output_script.py          Path to generated Python script (default: unstructured_calculate.py)",
    "", "Example:", "  python -m excel_pipeline.layer4a \\",
    "      output/indigo_mapping_v3.xlsx \\",
    "      output/indigo_unstructured_inputs.xlsx \\",
    "      generated_unstructured_calculate.py", ""]

def script : Finish :=
  match argv with
  | report :: _ :: rest =>
    let target := rest.headD "unstructured_calculate.py"
    let failed (s : String) := finish fs 1 ["\nError: " ++ s]
    match fs.load report with
    | .error f => failed (Files.sentence report f)
    | .ok _ =>
      match Code.makeProgram fs report with
      | .error f => failed f.sentence
      | .ok p =>
        match fs.writeText target (p.text library) with
        | .error f => failed (Files.sentence target f)
        | .ok fs => finish fs 0 []
  | _ => finish fs 1 scriptUsage

def run (tool : String) (argv : List String) : Outcome Finish :=
  match tool with
  | "run_pipeline" => .ok (report fs argv)
  | "run_this" => all library fs (argv.headD "")
  | "onesheet" => oneSheet library fs argv
  | "layer4a" => .ok (script library fs argv)
  | _ => .error .missingKey

end Commands

end Sheetwork.Layers
