import Sheetwork.Command.Run
import Sheetwork.Plan.Script
import Sheetwork.Plan.Structured
/-
  Plans: the command lines. Each takes a file and a folder, makes one more file in the folder and says what it does.
-/

namespace Sheetwork.Plan

open Command

inductive Tool where
  | report | inputs | structured | script | tablesScript

namespace Tool

def make (helpers loader : String) (t : Tool) (fs : Files) (source folder : String) : Outcome Made :=
  match t with
  | report => makeReport fs source folder
  | inputs => makeInputs fs source folder
  | structured => makeStructured fs source folder
  | script => Prod.fst <$> makeScript helpers loader fs source folder false
  | tablesScript => Prod.fst <$> makeScript helpers loader fs source folder true

def lastLines (t : Tool) (m : Made) : List String :=
  match t with
  | report => ["", "✓ Mapping report written to " ++ m.path]
  | _ => ["✓ Done"]

def usage : Usage := { operands := 2 }

def run (helpers loader : String) (t : Tool) (fs : Files) (argv : List String) : Outcome Finish :=
  match usage.parse argv with
  | .error r => .ok { exit := r.exit, files := fs }
  | .ok a => do
    let m ← t.make helpers loader fs (a.operand 0) (a.operand 1)
    pure { output := Run.text (m.log ++ t.lastLines m), files := m.files }

end Tool

end Sheetwork.Plan
