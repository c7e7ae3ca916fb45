import Sheetwork.Plan.Functions
import Sheetwork.Plan.Script
/-
  Plans: what a script does when it is run. A script that does not parse does nothing. A cell whose expression fails
  is emptied; where kinds did not fit, it is tried once more with zeros for empty cells.
-/

namespace Sheetwork.Plan

open Text

/-! Reading a script -/

/-- The lines of a comment after the first, which are no comment any more; empty ones
do not count. -/
def strayLines (comment : String) : List String :=
  ((split "\n" (replace "\r" "\n" comment)).drop 1).filter fun s => !(strip s).isEmpty && !startsWith "#" (stripLeft s)

def depthOf (line : String) : Nat := (line.toList.takeWhile isIndent).length

def badScript : Fault := ⟨.badScript, none⟩

def badIndentation : Fault := ⟨.badIndentation, none⟩

/-- The first lines that together are an expression, and the lines after them. -/
def firstExpr? (seen : String) : List String → Option (Script.Expr × List String)
  | [] => none
  | l :: ls =>
    match Script.Expr.ofText? (seen ++ l) with
    | some e => some (e, ls)
    | none => firstExpr? (seen ++ l ++ "\n") ls

/-- Reads lines at a depth. Those of the body of a script are at depth four and are carried out; one
  further out ends it, and then nothing may follow further in. -/
def readStray : Nat → Nat → List String → Outcome (List Script.Expr)
  | 0, _, _ => .ok []
  | _ + 1, depth, [] => if depth = 4 then .ok [] else .error badIndentation
  | fuel + 1, depth, l :: ls =>
    let d := depthOf l
    if d = depth || d = 0 then
      match firstExpr? "" ((stripLeft l) :: ls) with
      | some (e, rest) => do return e :: (← readStray fuel d rest)
      | none => .error badScript
    else .error badIndentation

def stray (comments : List String) : Outcome (List Script.Expr) := do
  let exprs ← comments.flatMapM fun c =>
    let ls := strayLines c
    readStray (ls.length + 1) 4 ls
  pure exprs

inductive Action where
  /-- Only for its faults. -/
  | compute (e : Script.Expr)
  | set (s : Spot) (call : Script.Expr)
  | loop (l : Loop) (call : Script.Expr)

def Loop.spot (l : Loop) (i : Int) : Spot := if l.along = .row then ⟨l.sheet, l.line, i⟩ else ⟨l.sheet, i, l.line⟩

def Statement.actions : Statement → Outcome (List Action)
  | gap => .ok []
  | set s => do
    let before ← stray [s.comment]
    let e ← badScript.ifNone (Script.Expr.ofText? (setCode s.sheet (ofInt s.row) (ofInt s.col) s.code))
    pure (before.map .compute ++ [.set ⟨s.sheet, s.row, s.col⟩ e])
  | loop l => do
    let before ← stray l.comments
    let code ← badIndentation.ifNone l.code
    let (row, col) := l.target
    let e ← badScript.ifNone (Script.Expr.ofText? (setCode l.sheet row col code))
    pure (before.map .compute ++ [.loop l e])

/-! Carrying it out -/

def attempt (c : Cells) (sc : Script.Scope) : Script.Expr → Cells × Outcome Value
  | .call _ args named =>
    let values := do
      let args ← Script.Expr.evalAll sc args
      let named ← Script.Expr.evalNamed sc named
      if named.isEmpty then pure args else .error .wrongKind
    match values with
    | .ok args => Functions.call c "_s" args
    | .error f => (c, .error f)
  | _ => (c, .error .wrongKind)

def clear (c : Cells) (s : Spot) : Outcome Cells :=
  match c.set s .null with
  | (c, .ok _) => .ok c
  | (_, .error f) => .error f

def assign (names : Script.Scope → Script.Scope) (c : Cells) (s : Spot) (call : Script.Expr) : Outcome Cells :=
  match attempt c (names (Functions.scope c)) call with
  | (c, .ok _) => .ok c
  | (c, .error f) =>
    if f.cause = .wrongKind then
      let lenient := { c with zeros := true }
      match attempt lenient (names (Functions.scope lenient)) call with
      | (c, .ok _) => .ok { c with zeros := false }
      | (c, .error _) => clear { c with zeros := false } s
    else clear c s

def Action.run (c : Cells) : Action → Outcome Cells
  | compute e => do
    let _ ← e.eval (Functions.scope c)
    pure c
  | set s call => assign id c s call
  | loop l call =>
    (Cells.numbers l.first l.last).foldlM (fun c i => assign (·.bind l.variableName (.int i)) c (l.spot i) call) c

def giveLook (w : Workbook) (l : Placed Look) : Outcome Workbook := do
  let s ← w.sheet l.sheet
  let p ← positionOf l.row l.col
  let style ← l.what.apply (s.cell p).style
  pure (w.putSheet (s.restyle p fun _ => style))

def Program.start (p : Program) (fs : Files) (input : String) : Outcome Cells := do
  match p.constants with
  | none =>
    let w ← fs.load input
    let missing := p.sheets.filter (· ∉ w.sheetNames)
    pure { workbook := missing.foldl Workbook.addSheet w }
  | some cs =>
    let c : Cells := { workbook := p.sheets.foldl Workbook.addSheet {} }
    let c ← cs.foldlM (fun c v =>
      match c.set ⟨v.sheet, v.row, v.col⟩ v.what with
      | (c, .ok _) => .ok c
      | (_, .error f) => .error f) c
    Tables.load c (← fs.load input).dataOnly

def Program.run (p : Program) (fs : Files) (input output : String) : Outcome Made := do
  let actions ← p.statements.flatMapM Statement.actions
  let c ← p.start fs input
  let c ← actions.foldlM Action.run c
  let w ← p.looks.foldlM giveLook c.workbook
  pure ⟨← fs.store output w, output, ["✓ Output written to " ++ output]⟩

end Sheetwork.Plan
