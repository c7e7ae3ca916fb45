import Sheetwork.Command.Run
import Sheetwork.Lineage.Simple
import Sheetwork.Mapping.Commands
import Sheetwork.Sampling.Highlight
import Sheetwork.Script.Generation
/-
  Commands: the tools on one workbook. Each takes its arguments and the files that are there.
-/

namespace Sheetwork.Command

variable (fs : Files)

def isFile (path : String) : Bool := !path.isEmpty && fs.has path

def scriptUsage : Usage := { operands := 1, switches := [{ name := "--config" },
  { name := "--output-dir" }] }

def savedAt (s : Script.Settings) (books : List (String × Workbook)) : List (String × Workbook) :=
  books.map fun (n, w) => (s.file n, w)

def scriptTool (vectorised : Bool) (library : String) (fs : Files) (argv : List String) : Outcome Run := do
  match scriptUsage.parse argv with
  | .error r => pure (.refused r)
  | .ok a =>
    let path := a.operand 0
    if !isFile fs path then pure (.missing path)
    else
      let config :=
          (a.value? "--config").orElse fun _ => if vectorised then none else some "config.yaml"
      let settings : Script.Settings := ⟨path, config.bind fs.text?, a.value? "--output-dir"⟩
      let w ← fs.load path
      if vectorised then
        let g ← Script.generateVectorised library settings w
        pure { output := Run.text g.log
               saved := savedAt settings [("input_template.xlsx", g.template), ("analysis_report.xlsx", g.report)] }
      else
        let g ← Script.generateCellwise library settings w
        pure { output := Run.text g.log, saved := savedAt settings [("input_template.xlsx", g.template)] }

def one (name : String) : Switch := { name }

def mappingUsages : List (String × Usage) :=
  [("map", { operands := 1, switches := [{ name := "--sheets", arity := .many }, one "--config", one "--output"] }),
    ("template", { operands := 1, switches := [one "--output"] }),
    ("structured-input", { operands := 1, switches := [one "--excel", one "--output"] }),
    ("regenerate", { operands := 1, switches := [one "--output", one "--inputs"] })]

def nonempty (s : Option String) : Option String := s.filter fun s => !s.isEmpty

def mappingRun (command : String) (a : Arguments) : Outcome Run := do
  let path := a.operand 0
  let out (name : String) := (nonempty (a.value? "--output")).getD (Path.join "output" name)
  let done (d : Mapping.Done) := do
    pure { output := Run.text d.log, saved := [(d.path, ← d.files.load d.path)] : Run }
  if !isFile fs path then pure (.missing path)
  else match command with
  | "map" => done (← Mapping.makeReport fs path (a.values? "--sheets") (a.value? "--output"))
  | "template" => done (← Mapping.makeTemplate fs path (out "input_template.xlsx"))
  | "structured-input" =>
    let source := nonempty (a.value? "--excel")
    match source.filter fun p => !isFile fs p with
    | some p => pure (.failed ["Error: Excel file '" ++ p ++ "' not found."])
    | none => done (← Mapping.makeStructured fs path source (some (out "structured_input.xlsx")))
  | _ => done (← Mapping.makeWorkbook fs path (out "regenerated.xlsx") (nonempty (a.value? "--inputs")))

variable (argv : List String)

def mappingTool : Outcome Run :=
  match argv with
  | [] => .ok (.refused .misused)
  | command :: rest =>
    match mappingUsages.find? (·.1 = command) with
    | some (_, u) =>
      match u.parse rest with
      | .ok a => mappingRun fs command a
      | .error r => .ok (.refused r)
    | none => .ok (.refused (if command = "-h" || command = "--help" then .asked else .misused))

def lineageTool : Outcome Run := do
  match argv with
  | [] => pure { exit := 1 }
  | path :: rest =>
    let dir := rest.headD "."
    let base := (Path.splitExtension (Path.base path)).1
    let simplePath := Path.join dir (base ++ "_simple_lineage.xlsx")
    let complexPath := Path.join dir (base ++ "_complex_lineage.xlsx")
    let w ← fs.load path
    let simple ← (Lineage.simple w).workbook
    let complex ← (Lineage.complex w).workbook
    pure
      { output := Run.text ["Building simple lineage for " ++ path ++ " ...", "  Written to " ++ simplePath,
          "Building complex lineage for " ++ path ++ " ...", "  Written to " ++ complexPath]
        saved := [(simplePath, simple), (complexPath, complex)] }

def patternsTool : Outcome Run := do
  match argv with
  | [] => pure { exit := 1 }
  | path :: _ =>
    let text ← ({ Json.pretty with textFallback := true }).write (Lineage.patternsDocument path (← fs.load path))
    pure { output := text ++ "\n" }

def patchLines (number : Nat) (p : Sampling.Patch) : Outcome (List String) := do
  let first ← Address.columnName p.minCol
  let last ← Address.columnName p.maxCol
  pure (["  Region " ++ Text.ofNat number ++ ": rows " ++ Text.ofNat p.minRow ++ "-" ++ Text.ofInt p.maxRow ++
      ", cols " ++ first ++ "-" ++ last] ++
    (if p.headers.isEmpty then [] else ["    Headers: " ++ (Value.list (p.headers.map .text)).toText]) ++
    ["    Data rows: " ++ Text.ofNat p.rows.length, "    Formulas : " ++ Text.ofNat p.formulas.length])

def sampleLines (s : Sampling.Sample) : Outcome (List String) := do
  let patches ← s.patches.zipIdx.mapM fun (p, i) => patchLines (i + 1) p
  pure (["", Text.times 60 "=", "Sheet: " ++ s.sheet, "  Regions detected : " ++ Text.ofNat s.patches.length,
      "  Total rows       : " ++ Text.ofNat s.totalRows,
      "  Sampled rows     : " ++ Text.ofNat s.shownRows,
      "  Sampled          : " ++ (Value.bool s.sampled).toText] ++ patches.flatten)

def spreadTool : Outcome Run := do
  match argv with
  | [] => pure { exit := 1 }
  | path :: rest =>
    let w ← fs.load path
    let sheet := nonempty rest.head?
    let names := (sheet.map ([·])).getD w.sheetNames
    let said ← names.mapM fun n => do
      let s ← w.sheet n
      sampleLines (← Sampling.Sample.ofSheet s (.spread Sampling.standardRows))
    let (fs, out) ← Sampling.highlight fs path sheet Sampling.standardRows
    pure { output := Run.text (said.flatten ++ ["", "Highlighted workbook saved to: " ++ out])
           saved := [(out, ← fs.load out)] }

def runTool (library : String) (fs : Files) (tool : String) (argv : List String) : Outcome Run :=
  match tool with
  | "e2p" => scriptTool false library fs argv
  | "vec" => scriptTool true library fs argv
  | "mapping" => mappingTool fs argv
  | "lineage" => lineageTool fs argv
  | "dedup" => patternsTool fs argv
  | "smart_random" => spreadTool fs argv
  | _ => .error .missingKey

end Sheetwork.Command
