import Sheetwork.Json.Writer
import Sheetwork.Text.Path
import Sheetwork.Text.Yaml
import Sheetwork.Vector.Script
/-
  Scripts: everything that is made from a workbook in one run. The script and the input template come together; the
  vectorised run adds a report and, if other workbooks are named, a file for their paths.
-/

namespace Sheetwork.Script

structure Settings where
  path : String
  /-- The text of the configuration file, if there is one. -/
  config : Option String := none
  out : Option String := none

namespace Settings

variable (s : Settings)

def directory : String :=
  s.out.getD (Path.join (match Path.directory s.path with
    | "" => "."
    | d => d) "output")

def file (name : String) : String := Path.join s.directory name

/-- Whether inputs that no formula reads are left out. -/
def onlyRead : Outcome Bool :=
  match (s.config.map Yaml.read).getD .null with
  | .keyed es => .ok ((Value.lookup (.text "delete_unreferenced_hardcoded_values") es).any Value.truthy)
  | v => if v.truthy then .error .badValue else .ok false

end Settings

structure Generated where
  script : List String
  template : Workbook
  report : Workbook := {}
  /-- The file for the paths of other workbooks. -/
  files : Option String := none
  log : List String

def prepared (make : Survey → List Survey.Entry → Outcome (List String)) (settings : Settings) (w : Workbook) :
    Outcome (Survey × List String × Workbook) := do
  let onlyRead ← settings.onlyRead
  let s := Survey.ofWorkbook w
  let inputs := s.keptInputs (← References.ofCells s.tableNames s.formulas) onlyRead
  pure (s, ← make s inputs, ← s.template inputs)

namespace Settings

variable (s : Settings)

def script : String := s.file "calculate.py"

def template : String := s.file "input_template.xlsx"

def hint : List String := ["", "To run: python " ++ s.script ++ " " ++ s.template ++ " <output.xlsx>"]

end Settings

def generateCellwise (library : String) (settings : Settings) (w : Workbook) : Outcome Generated := do
  let (_, script, template) ← prepared (cellwise library) settings w
  pure { script, template, log := ["Generated Python script: " ++ settings.script,
      "Generated input template: " ++ settings.template] ++ settings.hint }

def generateVectorised (library : String) (settings : Settings) (w : Workbook) : Outcome Generated := do
  let (s, script, template) ← prepared (Vector.script library) settings w
  let named := (Vector.workbookUses s.formulas).map (·.1)
  let sorted := named.mergeSort fun a b => (Value.textOrder a b).isLE
  let files ← if named.isEmpty then pure none
    else some <$> Json.pretty.write (.record (sorted.map fun f => (f, "")))
  let report ← Vector.report s
  pure
    { script, template, report, files
      log := ["Generated vectorised script : " ++ settings.script,
          "Generated input template    : " ++ settings.template] ++
        (if named.isEmpty then []
          else ["Generated external config   : " ++ settings.file "input_files_config.json"]) ++
        ["Generated analysis report   : " ++ settings.file "analysis_report.xlsx"] ++ settings.hint }

end Sheetwork.Script
