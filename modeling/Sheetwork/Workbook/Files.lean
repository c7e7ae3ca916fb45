import Sheetwork.Text.Path
import Sheetwork.Workbook.Basic
/-
  Workbooks: files by path. A path is looked up without empty parts and single dots, from the current folder if it
  lies there; opening checks the extension before it looks for the file.
-/

namespace Sheetwork

open Path

inductive File where
  | workbook (w : Workbook)
  | text (s : String)

instance : Inhabited File := ⟨.text ""⟩

structure Files where
  entries : List (String × File) := []
  /-- Folders that were made; those of files are there anyway. -/
  folders : List String := []
  /-- The full path of the current folder. -/
  here : String := "/"

namespace Files

variable (fs : Files) (path : String)

/-- The full path of a file, with steps to the folder above carried out. -/
def absolute : String :=
  let own := parts fs.here
  let ps := parts path
  let ps := if ps.head? = some "/" || own.isPrefixOf ps then ps else own ++ ps
  ofParts (ps.foldl (fun acc p => if p = ".." then acc.dropLast else acc ++ [p]) [])

/-- What a path is called from the current folder. -/
def key : String :=
  let own := parts fs.here
  let ps := parts path
  ofParts (if own.isPrefixOf ps then ps.drop own.length else ps)

def find? : Option File := (fs.entries.find? (·.1 = fs.key path)).map (·.2)

def has : Bool := (fs.find? path).isSome

def put (f : File) : Files :=
  { fs with entries := putBy Prod.fst (fs.key path, f) fs.entries }

def remove : Files := { fs with entries := fs.entries.filter fun e => e.1 ≠ fs.key path }

/-- The current folder, a folder that was made, or one in which something is. -/
def hasFolder : Bool :=
  let ps := parts (fs.key path)
  let below (p : String) := ps.isPrefixOf (parts p)
  ps.isEmpty || fs.folders.any below || fs.entries.any fun e => below (parent e.1)

def makeFolder : Files := { fs with folders := fs.folders ++ [fs.key path] }

def isThere : Bool := fs.has path || fs.hasFolder path

def extensions : List String := [".xlsx", ".xlsm", ".xltx", ".xltm"]

def load : Outcome Workbook :=
  if !extensions.contains (Text.lower (splitExtension path).2) then .error ⟨.badExtension, none⟩
  else match fs.find? path with
    | some (.workbook w) => .ok w
    | some (.text _) => .error ⟨.notWorkbook, none⟩
    | none => .error ⟨.missingFile, none⟩

/-- Why a workbook cannot be opened, or a file not be written. -/
def sentence (path : String) (f : Fault) : String :=
  match f.cause with
  | .missingFile => "[Errno 2] No such file or directory: " ++ Text.quoted path
  | .notWorkbook => "File is not a zip file"
  | .badExtension =>
    match Text.lower (splitExtension path).2 with
    | ".xls" => "openpyxl does not support the old .xls file format, please use xlrd to read " ++
        "this file, or convert it to the more recent .xlsx file format."
    | ".xlsb" => "openpyxl does not support binary format .xlsb, please convert this file to " ++
        ".xlsx format if you want to open it with openpyxl"
    | ext => "openpyxl does not support " ++ ext ++ " file format, please check you can open it " ++
        "with Excel first. Supported formats are: " ++ Text.join "," extensions
  | _ => f.sentence

variable (w : Workbook)

def save : Outcome Files :=
  if w.sheets.isEmpty then .error .outOfRange else .ok (fs.put path (.workbook w))

/-- Stores a copy of a workbook as it is read again; the folder has to be there. -/
def store : Outcome Files :=
  if !fs.hasFolder (parent path) then .error ⟨.missingFile, none⟩
  else fs.save path w.stored

def storeIn : Outcome Files :=
  (fs.makeFolder (parent path)).store path w

def writeText (s : String) : Outcome Files :=
  if !fs.hasFolder (parent path) then .error ⟨.missingFile, none⟩
  else .ok (fs.put path (.text s))

def text? : Option String :=
  match fs.find? path with
  | some (.text s) => some s
  | _ => none

end Files

end Sheetwork
