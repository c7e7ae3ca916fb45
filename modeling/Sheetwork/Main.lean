import Sheetwork.Workbook.Document
import Sheetwork.Command.Tools
import Sheetwork.Layers.Commands
import Sheetwork.Model.Commands
import Sheetwork.Plan.Commands
/-
  Command line: a family, a tool and its arguments. Arguments that name files are read first. A file that holds the
  record of a workbook is that workbook, any other one is text; what a tool makes is written back, workbooks as
  listings.
-/

namespace Sheetwork.Command

/-! All programs by family and name, on files that are given as values. -/

structure Library where
  functions : String := ""
  loader : String := ""
  folder : String := ""

def planTool? : String → Option Plan.Tool
  | "report" => some .report
  | "inputs" => some .inputs
  | "structured" => some .structured
  | "script" => some .script
  | "tables-script" => some .tablesScript
  | _ => none

def Run.finish (r : Run) (fs : Files) : Finish :=
  { exit := r.exit, output := r.output
    files := r.saved.foldl (fun fs (p, w) => fs.put p (.workbook w)) fs }

def runProgram (lib : Library) (fs : Files) (family tool : String) (argv : List String) : Outcome Finish :=
  match family, tool with
  | "tools", tool => do return (← runTool lib.functions fs tool argv).finish fs
  | "layers", tool => Layers.Commands.run lib.functions fs tool argv
  | "model", "pipeline" => Model.Commands.runPipeline fs argv
  | "model", "program" => Model.Commands.runProgram fs argv
  | "model", "stages" => Model.Commands.runStages fs argv
  | "model", "prepare" => Model.Commands.runPrepare lib.folder fs argv
  | "plan", tool =>
    do (← Fault.missingKey.ifNone (planTool? tool)).run lib.functions lib.loader fs argv
  | _, _ => .error .missingKey

def fileOf (text : String) : File :=
  match Json.read text with
  | .ok v => match Workbook.ofDocument v with
    | .ok w => .workbook w
    | .error _ => .text text
  | .error _ => .text text

def textOf : File → String
  | .workbook w => ((Json.pretty.write w.listing).toOption).getD ""
  | .text s => s

def made (before after : Files) : List (String × String) :=
  let written := after.entries.map fun e => (e.1, textOf e.2)
  written.filter fun e => (before.find? e.1).map textOf ≠ some e.2

def faultText (f : Fault) : String := f.message.getD "The command cannot be carried out on these files."

def readText? (path : String) : IO (Option String) := do
  try return some (← IO.FS.readFile path) catch _ => return none

def readFiles (paths : List String) : IO Files :=
  paths.foldlM (fun fs p => do
    match ← readText? p with
    | some s => return fs.put p (fileOf s)
    | none => return fs) ({ here := "" } : Files)

def readLibrary : IO Library := do
  return { functions := (← readText? "functions.txt").getD "", loader := (← readText? "loader.txt").getD "" }

def writeText (path text : String) : IO Unit := do
  let folder := Path.parent path
  unless folder.isEmpty do IO.FS.createDirAll folder
  IO.FS.writeFile path text

def runOnDisk (family tool : String) (argv : List String) : IO UInt32 := do
  let fs ← readFiles argv
  match runProgram (← readLibrary) fs family tool argv with
  | .error f =>
    IO.eprintln (faultText f)
    return 1
  | .ok r =>
    IO.print r.output
    for (path, text) in made fs r.files do writeText path text
    return r.exit.toNat.toUInt32

end Sheetwork.Command

def main : List String → IO UInt32
  | family :: tool :: argv => Sheetwork.Command.runOnDisk family tool argv
  | _ => do
    IO.eprintln "usage: sheetwork FAMILY TOOL [ARGUMENT ...]"
    return 2
