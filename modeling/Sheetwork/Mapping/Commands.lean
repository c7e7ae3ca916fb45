import Sheetwork.Mapping.Structured
import Sheetwork.Workbook.Files
/-
  Mapping: the commands on files. Each reads workbooks, saves one and tells where it is.
-/

namespace Sheetwork.Mapping

structure Done where
  files : Files
  log : List String
  path : String

def directoryOf (path : String) : String :=
  match Path.directory path with
  | "" => "."
  | d => d

variable (fs : Files)

def makeReport (source : String) (chosen : Option (List String)) (out : Option String) : Outcome Done := do
  let w ← fs.load source
  let path := out.getD (Path.join (Path.join (directoryOf source) "output") "mapping_report.xlsx")
  pure ⟨← fs.save path (← report w chosen), ["Generated mapping report: " ++ path], path⟩

def makeTemplate (map path : String) : Outcome Done := do
  let w ← fs.load map
  pure ⟨← fs.save path (← template w), ["Generated input template: " ++ path], path⟩

def makeWorkbook (map path : String) (inputs : Option String) : Outcome Done := do
  let w ← fs.load map
  let values ← inputs.mapM fs.load
  pure ⟨← fs.save path (← regenerate w values), ["Regenerated workbook: " ++ path], path⟩

def makeStructured (map : String) (source out : Option String) : Outcome Done := do
  let w ← fs.load map
  let src ← source.mapM fun p => do pure (← fs.load p).dataOnly
  let path := out.getD (Path.join (directoryOf map) "structured_input.xlsx")
  pure ⟨← fs.save path (← structured w src), ["Generated structured input: " ++ path], path⟩

def assign (path sheet address : String) (v : Value) : Outcome Files := do
  match fs.find? path with
  | some (.workbook w) =>
    let w := if (w.sheet? sheet).isSome then w else w.addSheet sheet
    let s ← w.sheet sheet
    pure (fs.put path (.workbook (w.putSheet (← s.putAt address v))))
  | _ => .error .missingKey

end Sheetwork.Mapping
