import Sheetwork.Text.Yaml
import Sheetwork.Workbook.Files
/-
  Layers: settings. They are read from a file of nested entries and looked up by a key whose parts are divided by
  points; a missing or empty entry has its default.
-/

namespace Sheetwork.Layers

structure Settings where
  entries : Value := .keyed []

namespace Settings

def load (fs : Files) (path : String) : Outcome Settings :=
  match fs.text? path with
  | some s => .ok ⟨Yaml.read s⟩
  | none => .error (.saying .missingFile ("Configuration file not found: " ++ path))

variable (s : Settings)

/-- The settings of a file if it is there, else those there were. -/
def orLoad (fs : Files) (path : String) : Settings :=
  match load fs path with
  | .ok t => t
  | .error _ => s

def lookup (v : Value) : List String → Option Value
  | [] => some v
  | k :: ks =>
    match v with
    | .keyed _ =>
      let x := v.get k
      if x.isNull then none else lookup x ks
    | _ => none

def get (key : String) (default : Value) : Value := (lookup s.entries (Text.split "." key)).getD default

/-- The settings with a name of their own: their keys and defaults. -/
def named : List (String × String × Value) :=
  [("input_folder", "pipeline.input_folder", "ExcelFiles/"), ("output_folder", "pipeline.output_folder", "output/"),
    ("temp_folder", "pipeline.temp_folder", "temp/"),
    ("log_level", "logging.level", "INFO"),
    ("log_file", "logging.file", "pipeline.log"),
    ("vectorization_threshold", "performance.vectorization_threshold", .int 10),
    ("chunk_size", "performance.chunk_size", .int 10000),
    ("validation_tolerance", "validation.tolerance", .float 1e-9),
    ("check_formatting", "validation.check_formatting", .bool true),
    ("check_formulas", "validation.check_formulas", .bool true),
    ("version", "version", "1.0.0")]

def setting (name : String) : Outcome Value := do
  let (_, key, default) ← Fault.noProperty.ifNone (named.find? (·.1 = name))
  pure (s.get key default)

def version (s : Settings) : Value := s.get "version" (.text "1.0.0")

def threshold : Value := s.get "performance.vectorization_threshold" (.int 10)

def logFile : Value := s.get "logging.file" (.text "pipeline.log")

def levelNumber (level : String) : Nat :=
  match Text.upper level with
  | "CRITICAL" | "FATAL" => 50
  | "ERROR" => 40
  | "WARNING" | "WARN" => 30
  | "DEBUG" => 10
  | "NOTSET" => 0
  | _ => 20

/-- A log: the least level that it shows and the number of places where it goes. -/
structure Log where
  (level places : Nat)

open Text Text.Pattern in
def logField : Pattern :=
  let number := chr '*' <|> digit.plus
  (lit "%(" ++ word.plus ++ chr ')' ++ (anyOf "#0+ -").many ++ number.opt ++
    (chr '.' ++ number).opt ++ anyOf "diouxefgcrsa%").anyCase

/-- The log of a level, in a file as well if one is given; a form of its lines names a field. -/
def log (level file form : Value) : Outcome Log := do
  let level ← Fault.noProperty.ifNone level.text?
  let isForm := match form with
    | .text s => s.isEmpty || (logField.search? s).isSome
    | _ => true
  if isForm then pure ⟨levelNumber level, if file.truthy then 2 else 1⟩
  else .error .badValue

def openLog (fs : Files) (path : String) : Files :=
  let fs := fs.makeFolder (Path.parent path)
  if fs.has path then fs else fs.put path (.text "")

end Settings

end Sheetwork.Layers

/-! Freezing. The formulas of every sheet but one are replaced by the values they
had. -/

namespace Sheetwork.Layers

namespace Freeze

def isSimple : Value → Bool
  | .null | .bool _ | .int _ | .float _ | .text _ | .date _ | .datetime _ => true
  | _ => false

/-- A text that begins with an equals sign, or a value that is not simple. -/
def isFormula (v : Value) : Bool :=
  match v with
  | .text s => Text.startsWith "=" s
  | v => !isSimple v

structure Counts where
  sheets : Nat := 0
  frozen : Nat := 0
  empty : Nat := 0

def freezeCell (s : Sheet) (acc : Sheet × Counts) (e : Position × Cell) : Outcome (Sheet × Counts) := do
  let (p, c) := e
  if s.isHidden p || !isFormula c.value then pure acc
  else
    let cached := c.dataOnly.value
    let cached := if isSimple cached then cached else .null
    let counts := { acc.2 with
      frozen := acc.2.frozen + 1
      empty := acc.2.empty + if cached.isNull then 1 else 0 }
    pure (← acc.1.put p cached, counts)

def freezeSheet (counts : Counts) (s : Sheet) : Outcome (Sheet × Counts) :=
  s.entries.foldlM (freezeCell s) (s, { counts with sheets := counts.sheets + 1 })

def others (w : Workbook) (target : String) : Outcome (Workbook × Counts) := do
  if (w.sheet? target).isNone then
    .error (.saying .badValue ("Sheet '" ++ target ++ "' not found. Available: " ++ Text.join ", " w.sheetNames))
  w.sheets.foldlM (fun (acc : Workbook × Counts) s => do
    if s.name = target then pure acc
    else
      let (s, counts) ← freezeSheet acc.2 s
      pure (acc.1.putSheet s, counts)) (w, {})

end Freeze

def freeze (fs : Files) (source sheet target : String) : Outcome (Files × Freeze.Counts) := do
  if !fs.isThere source then .error (.saying .missingFile ("Input file not found: " ++ source))
  let w ← fs.load source
  let (w, counts) ← Freeze.others w sheet
  pure (← fs.storeIn target w, counts)

end Sheetwork.Layers
