import Sheetwork.Model.Check
import Sheetwork.Model.Launcher
/-
  Models: the command lines. One takes workbooks through report, inputs and calculation and checks every stage, one
  does so with a program in the place of the calculation, one goes through chosen stages only, and one prepares
  unstructured inputs with a script to calculate from them.
-/

namespace Sheetwork.Model

open Command Path

namespace Commands

structure Artifacts where
  folder : String

namespace Artifacts

def ofWorkbook (root source : String) : Artifacts := ⟨under root (folderName (stem source))⟩

variable (a : Artifacts)

def file (name : String) : String := under a.folder name

def report : String := a.file "mapping_report.xlsx"

def inputs : String := a.file "unstructured_inputs.xlsx"

def structured : String := a.file "structured_input.xlsx"

def inputsScript : String := a.file "unstructured_calculate.py"

def structuredScript : String := a.file "structured_calculate.py"

def inputsOutput : String := a.file "output_unstructured.xlsx"

def structuredOutput : String := a.file "output_structured.xlsx"

def inputsRun : Program.Defaults := ⟨a.report, a.inputs, a.inputsOutput⟩

def structuredRun : Program.Defaults := ⟨a.report, a.structured, a.structuredOutput⟩

end Artifacts

def mostMismatches : Int := 200

def paths (es : List (String × String)) : Value := .record (es.map fun (k, p) => (k, p))

def said (v : Value) : Outcome String := do pure ((← Json.pretty.write v) ++ "\n")

def verdict (ok : Bool) : Int := if ok then 0 else 1

/-! Report, inputs and calculation -/

def reportSummary (b : Blueprint) : Value :=
  let kinds := ["Input", "Calculation", "Output"]
  let counts (name : String) := Value.record (kinds.map fun k =>
    (k, toValue ((b.entriesOf name).countP fun e => e.kind == .text k)))
  .record [("sheets", toValue b.order),
    ("cell_counts", .record (b.order.map fun n => (n, toValue (b.entriesOf n).length))),
    ("type_counts", .record (b.order.map fun n => (n, counts n)))]

def structuredSummary (w : Workbook) : Value :=
  let rows (name : String) := toValue (((w.sheet? name).map fun s => s.maxRow - 1).getD 0)
  let own := [Structured.indexSheet, Structured.configSheet]
  .record [("sheetnames", toValue w.sheetNames), ("index_rows", rows Structured.indexSheet),
    ("config_rows", rows Structured.configSheet),
    ("table_sheets", toValue (w.sheetNames.filter fun n => !own.contains n))]

variable (fs : Files) (source root cache : String)

/-- Takes one workbook through all stages: the files, the findings, and whether all is right. -/
def pipeline : Outcome (Files × Value × Bool) := do
  let a := Artifacts.ofWorkbook root source
  let fs ← makeReport fs source a.report cache
  let reportIssues ← Check.report fs a.report mostMismatches
  let fs ← makeInputs fs a.report a.inputs
  let inputIssues ← Check.inputs fs a.report a.inputs mostMismatches
  let fs ← makeStructured fs a.report a.structured
  let structuredIssues ← Check.structured fs a.report a.structured mostMismatches
  let fs ← Launcher.inputs.write fs a.inputsScript a.inputsRun
  let fs ← Launcher.structured.write fs a.structuredScript a.structuredRun
  let fs ← calculate fs a.report a.inputs a.inputsOutput
  let fs ← calculateStructured fs a.report a.structured a.structuredOutput
  let b ← readReport fs a.report
  let byInputs ← compareFiles fs b.template a.inputsOutput mostMismatches
  let byStructured ← compareFiles fs b.template a.structuredOutput mostMismatches
  let issues (stage : String) (is : List Issue) := Value.list (is.map (Issue.document stage))
  let found (ds : List Difference) := ds.map Difference.document
  let diagnose (is : List Issue) (ds : List Difference) (mode : String) :=
    Value.text (Check.diagnose (reportIssues.map fun _ => .null) (is.map fun _ => .null) (found ds) mode)
  let ok := reportIssues.isEmpty && inputIssues.isEmpty && structuredIssues.isEmpty &&
    byInputs.isEmpty && byStructured.isEmpty
  let doc := Value.record [("source_workbook", .text (tidy source)),
      ("artifacts", paths [("mapping_report", a.report), ("unstructured_inputs", a.inputs),
        ("structured_input", a.structured), ("unstructured_calculate", a.inputsScript),
        ("structured_calculate", a.structuredScript), ("output_unstructured", a.inputsOutput),
        ("output_structured", a.structuredOutput)]),
      ("intermediate_checks", .record
        [("mapping", reportSummary b), ("structured_input", structuredSummary (← fs.load a.structured)),
          ("stage_verification", .record [("layer1_mapping_mismatches", issues "Layer1" reportIssues),
              ("layer2a_unstructured_mismatches", issues "Layer2a" inputIssues),
              ("layer2b_structured_mismatches", issues "Layer2b" structuredIssues)])]),
      ("mismatches", .record [("unstructured", .list (found byInputs)), ("structured", .list (found byStructured))]),
      ("diagnosis", .record [("unstructured", diagnose inputIssues byInputs "unstructured"),
        ("structured", diagnose structuredIssues byStructured "structured")]),
      ("success", .bool ok)]
  let fs ← fs.writeText (a.file "validation_report.json") (← Json.pretty.write doc)
  pure (fs, doc, ok)

def workbooksIn (folder : String) : Outcome (List String) := do
  if !fs.hasFolder folder then .error ⟨.missingFile, none⟩
  let here := fs.entries.map (·.1) |>.filter fun p =>
    parts (parent p) = parts (fs.key folder) && [".xls", ".xlsx"].contains (Text.lower (suffix p))
  pure ((Ordered.ofList (here.map name)).map (under folder))

def folderPipeline (folder root cache : String) (parallel : Bool) : Outcome (Files × List String × Value × Bool) := do
  let files ← workbooksIn fs folder
  let failed (path : String) (f : Fault) := Value.record
    [("source_workbook", path), ("success", .bool false), ("error", f.sentence),
      ("artifacts", .keyed []), ("mismatches", .record [("unstructured", .list []),
        ("structured", .list [])]), ("intermediate_checks", .keyed [])]
  let step (acc : Files × List (Value × Bool)) (path : String) := do
    let (fs, done) := acc
    match pipeline fs path root cache with
    | .ok (fs, v, ok) => pure (fs, done ++ [(v, ok)])
    | .error f => if parallel then pure (fs, done ++ [(failed path f, false)]) else .error f
  let (fs, results) ← files.foldlM step (fs, [])
  let count (ok : Bool) := toValue (results.countP fun r => r.2 == ok)
  let lines := files.zipIdx.map fun (p, i) =>
    "[" ++ Text.ofNat (i + 1) ++ "/" ++ Text.ofNat files.length ++ "] completed: " ++ name p
  let doc := Value.record [("excel_dir", .text (tidy folder)), ("output_root", .text (tidy root)),
      ("total_files", toValue files.length), ("success_count", count true),
      ("failure_count", count false), ("results", .list (results.map (·.1)))]
  let fs ← (fs.makeFolder root).writeText (under root "summary.json") (← Json.pretty.write doc)
  pure (fs, lines, doc, results.all (·.2))

def cacheSwitch : Switch := { name := "--cache-dir" }

def rootSwitch : Switch := { name := "--output-root" }

def defaultCache : String := ".cache/normalized"

def pipelineUsage : Usage :=
  { switches :=
    [{ name := "--excel-dir" }, rootSwitch, cacheSwitch,
      { name := "--single-file" }, { name := "--verify-generated", arity := .none },
      { name := "--workers", isNumber := true }] }

/-- Runs with the arguments that a usage reads; arguments that it refuses leave the files alone. -/
def within (u : Usage) (argv : List String) (run : Arguments → Outcome Finish) : Outcome Finish :=
  match u.parse argv with
  | .error r => .ok { exit := r.exit, files := fs }
  | .ok a => run a

variable (argv : List String)

def runPipeline : Outcome Finish :=
  within fs pipelineUsage argv fun a => do
    let root := a.get "--output-root" "artifacts"
    let cache := a.get "--cache-dir" defaultCache
    match a.value? "--single-file" with
    | some source => do
      let (fs, v, ok) ← pipeline fs source root cache
      pure ⟨verdict ok, ← said v, fs⟩
    | none => do
      let parallel := ((a.value? "--workers").bind Number.int?).any (1 < ·)
      let folder := a.get "--excel-dir" "ExcelFiles"
      let (fs, lines, v, ok) ← folderPipeline fs folder root cache parallel
      pure ⟨verdict ok, Run.text lines ++ (← said v), fs⟩

/-! Programs -/

def programUsage : Usage :=
  { switches := [{ name := "--file", required := true }, rootSwitch, cacheSwitch] }

def programPipeline : Outcome (Files × Value × Bool) := do
  let a := Artifacts.ofWorkbook root source
  let script := a.file "unstructured_python_engine.py"
  let output := a.file "unstructured_output_python.xlsx"
  let fs ← makeReport fs source a.report cache
  let fs ← makeInputs fs a.report a.inputs
  let (fs, cs) ← makeProgram fs a.report script a.inputs output
  let fs ← Program.run fs cs a.report a.inputs output
  let b ← readReport fs a.report
  let found ← compareFiles fs b.template output mostMismatches
  let doc := Value.record [("source_workbook", .text (tidy source)),
      ("artifacts", paths [("mapping_report", a.report), ("unstructured_inputs", a.inputs),
        ("unstructured_python_engine", script), ("output_unstructured_python", output)]),
      ("mismatches", .list (found.map Difference.document)), ("success", .bool found.isEmpty)]
  let fs ← fs.writeText (a.file "python_engine_validation_report.json") (← Json.pretty.write doc)
  pure (fs, doc, found.isEmpty)

def runProgram : Outcome Finish :=
  within fs programUsage argv fun a => do
    let (fs, v, ok) ← programPipeline fs (a.get "--file" "")
      (a.get "--output-root" "artifacts_python_engine")
      (a.get "--cache-dir" defaultCache)
    pure ⟨verdict ok, ← said v, fs⟩

/-! Chosen stages -/

def stagesUsage : Usage :=
  { switches :=
    [{ name := "--file", required := true },
      { name := "--mode", required := true, allowed := ["1", "1-2a", "1-2b", "1-2a-3a", "1-2b-3b"] }, rootSwitch,
      cacheSwitch] }

def stages (source mode root cache : String) : Outcome (Files × Value) := do
  let a := Artifacts.ofWorkbook (fs.absolute root) source
  let fs ← makeReport fs source a.report (fs.absolute cache)
  let fs ← if ["1-2a", "1-2a-3a"].contains mode then makeInputs fs a.report a.inputs else pure fs
  let fs ←
      if ["1-2b", "1-2b-3b"].contains mode then makeStructured fs a.report a.structured else pure fs
  let fs ← if mode = "1-2a-3a" then do
      let fs ← Launcher.inputs.write fs a.inputsScript a.inputsRun
      Launcher.inputs.calculate fs a.inputsRun
    else pure fs
  let fs ← if mode = "1-2b-3b" then do
      let fs ← Launcher.structured.write fs a.structuredScript a.structuredRun
      Launcher.structured.calculate fs a.structuredRun
    else pure fs
  let there (p : String) := if fs.has p then p else ""
  pure (fs, paths [("mode", mode), ("source", fs.absolute source), ("mapping_report", a.report),
      ("unstructured_inputs", there a.inputs), ("structured_input", there a.structured),
      ("unstructured_calculate", there a.inputsScript),
      ("structured_calculate", there a.structuredScript),
      ("output_unstructured", there a.inputsOutput),
      ("output_structured", there a.structuredOutput)])

def runStages : Outcome Finish :=
  within fs stagesUsage argv fun a => do
    let (fs, v) ← stages fs (a.get "--file" "") (a.get "--mode" "")
      (a.get "--output-root" "artifacts_sections") (a.get "--cache-dir" defaultCache)
    pure ⟨0, ← said v, fs⟩

/-! Unstructured inputs with a script -/

def inputsUsage : Usage :=
  { switches :=
    [{ name := "--file", required := true }, rootSwitch, cacheSwitch,
      { name := "--skip-verify", arity := .none }] }

def previewed : Nat := 20

def reason (source : String) (f : Fault) : String :=
  match f.message, f.cause with
  | none, .noProperty => "'NoneType' object has no attribute 'style'"
  | _, _ => Files.sentence source f

def startFrom : Outcome (Files × Artifacts) := do
  if !fs.isThere source then .error (.saying .missingFile ("Source workbook not found: " ++ source))
  if [".xlsx", ".xls"].all (· ≠ Text.lower (suffix source)) then
    .error (.saying .badValue "Supported source extensions are .xlsx and .xls")
  let a := Artifacts.ofWorkbook (fs.absolute root) source
  pure (← makeReport fs source a.report cache, a)

/-- Writes inputs and script, and compares what they give with the source. -/
def prepare (library : String) (fs : Files) (source : String) (a : Artifacts) (verify : Bool) :
    Outcome (Files × Value) := do
  let fs ← makeInputs fs a.report a.inputs
  let fs ← (Launcher.standalone library).write fs a.inputsScript a.inputsRun
  let (fs, compared) : Files × Option (Outcome (List Difference)) :=
    if !verify then (fs, none)
    else match Launcher.inputs.calculate fs a.inputsRun with
      | .error f => (fs, some (.error f))
      | .ok fs => (fs, some (compareFiles fs source a.inputsOutput mostMismatches))
  let found := match compared with
    | some (.ok ds) => some ds
    | _ => none
  let error := match compared with
    | some (.error f) => some (reason source f)
    | _ => none
  pure (fs, .record
    [("source_workbook", source), ("artifacts", paths [("mapping_report", a.report), ("unstructured_inputs", a.inputs),
        ("unstructured_calculate", a.inputsScript),
        ("output_unstructured", if fs.has a.inputsOutput then a.inputsOutput else "")]),
      ("verification", .record
        [("enabled", .bool verify), ("success", if verify then .bool (found.any List.isEmpty) else .null),
          ("mismatch_count", toValue (found.map List.length)),
          ("mismatches_preview", .list (((found.getD []).take previewed).map Difference.document)),
          ("error", toValue error)])])

def runPrepare (library : String) (fs : Files) (argv : List String) : Outcome Finish :=
  within fs inputsUsage argv fun a =>
    let folder := under library "Level1Identification"
    let source := fs.absolute (a.get "--file" "")
    let root := a.get "--output-root" (under folder "generated_unstructured")
    let cache := a.get "--cache-dir" (under folder ".cache/normalized")
    match startFrom fs source root cache with
    | .error _ => .ok { exit := 1, files := fs }
    | .ok (fs, made) =>
      match prepare library fs source made (!a.has "--skip-verify") with
      | .error _ => .ok { exit := 1, files := fs }
      | .ok (fs, v) => do pure ⟨0, ← said v, fs⟩

end Commands

end Sheetwork.Model
