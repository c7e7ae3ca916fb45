import Sheetwork.Model.Expr
import Sheetwork.Script.Token
import Sheetwork.Workbook.Basic
/-
  Models: the workbook that an expression is computed in. Whole rows and columns reach as far as the recorded cells of
  their sheet, or as the sheet itself if nothing is recorded; a cell that is looked at exists from then on.
-/

namespace Sheetwork.Model

structure Extent where
  (minRow maxRow minCol maxCol : Int)

structure Context where
  workbook : Workbook
  extents : List (String × Extent) := []

namespace Context

def sheet (c : Context) (name : String) : Outcome Sheet :=
  (Engine.fault ("Unknown sheet: " ++ name)).ifNone (c.workbook.sheet? name)

variable (c : Context)

def extent? (name : String) : Option Extent := (c.extents.find? (·.1 = name)).map (·.2)

def position (ref : String) : Outcome Position := do
  match ← Address.target (Text.replace "$" "" ref) with
  | .cell p => pure p
  | .several => .error .noProperty

variable (name ref : String)

def cell : Outcome Value := do
  let s ← c.sheet name
  pure (s.value (← position ref))

def set (v : Value) : Outcome Context := do
  let s ← c.sheet name
  pure { c with workbook := c.workbook.putSheet (← s.put (← position ref) v) }

def span (lo hi : Int) : List Int := (List.range (hi + 1 - lo).toNat).map fun (i : Nat) => lo + i

def rectangle (s : Sheet) (ref : String) : Outcome Extent := do
  let clean := (Text.replace "$" "" ref).toList
  let extent := c.extent? s.name
  let unknown := Engine.fault ("Unsupported range reference: " ++ s.name ++ "!" ++ ref)
  match Text.cutL? [':'] clean with
  | none => do
    let p ← unknown.ifNone (spot? clean)
    pure ⟨p.row, p.row, p.col, p.col⟩
  | some (a, b) =>
    match spot? a, spot? b with
    | some p, some q => pure ⟨p.row, q.row, p.col, q.col⟩
    | _, _ =>
      if isDigits a && isDigits b then
        let (lo, hi) := (extent.map fun e => (e.minCol, e.maxCol)).getD (1, (s.maxCol : Int))
        pure ⟨Text.natOfDigits a, Text.natOfDigits b, lo, hi⟩
      else if isLetters a && isLetters b then
        let (lo, hi) := (extent.map fun e => (e.minRow, e.maxRow)).getD (1, (s.maxRow : Int))
        pure ⟨lo, hi, Column.spelled a, Column.spelled b⟩
      else .error unknown

def onSheet (row col : Int) : Outcome Position := do
  let _ ← Address.columnName col
  if 1 ≤ row && row ≤ Address.maxRow then pure ⟨row.toNat, col.toNat⟩ else .error .badValue

def positions : Outcome (List Position) := do
  let e ← c.rectangle (← c.sheet name) ref
  let cells := (span e.minRow e.maxRow).flatMap fun r => (span e.minCol e.maxCol).map fun k => (r, k)
  cells.mapM fun (r, k) => onSheet r k

def range : Outcome (List Value) := do
  let s ← c.sheet name
  pure ((← c.positions name ref).map s.value)

/-- The context after the cells of a reference were looked at. -/
def look : Context :=
  match c.workbook.sheet? name, c.positions name ref with
  | some s, .ok ps => { c with workbook := c.workbook.putSheet (ps.foldl Sheet.touch s) }
  | _, _ => c

end Context

namespace Expr

/-- The value of a number as it is written in code: whole, or with a fraction or an exponent. -/
def numberValue (s : String) : Outcome Value :=
  match Script.Token.scan? s with
  | some [.number v] => .ok v
  | some [.name _] => .error ⟨.unknownName, none⟩
  | _ => .error ⟨.badScript, none⟩

mutual

/-- The value of an expression; arguments are computed from left to right before a call. -/
def eval (c : Context) : Expr → Outcome Value
  | number s => numberValue s
  | text s => .ok (.text s)
  | bool b => .ok (.bool b)
  | error e => .ok (.text e)
  | ref sheet r =>
    if (spot? r.toList).isSome then Engine.referred <$> c.cell sheet r
    else .list <$> c.range sheet r
  | signed s e => do s.apply (← eval c e)
  | binary o a b => do
    let a ← eval c a
    let b ← eval c b
    o.apply a b
  | call name args => do
    let (_, f) ← Fault.missingKey.ifNone (Engine.function? name)
    f.apply (← evals c args)

def evals (c : Context) : List Expr → Outcome (List Value)
  | [] => .ok []
  | e :: es => do
    let v ← eval c e
    pure (v :: (← evals c es))

end

mutual

def refs : Expr → List (String × String)
  | ref sheet r => [(sheet, r)]
  | signed _ e => refs e
  | binary _ a b => refs a ++ refs b
  | call _ args => allRefs args
  | _ => []

def allRefs : List Expr → List (String × String)
  | [] => []
  | e :: es => refs e ++ allRefs es

end

mutual

def numbers : Expr → List String
  | number s => [s]
  | signed _ e => numbers e
  | binary _ a b => numbers a ++ numbers b
  | call _ args => allNumbers args
  | _ => []

def allNumbers : List Expr → List String
  | [] => []
  | e :: es => numbers e ++ allNumbers es

end

/-- The code of an expression can be read: its numbers are written as code has them. -/
def isReadable (e : Expr) : Bool :=
  e.numbers.all fun s => match numberValue s with
    | .error f => f.cause != .badScript
    | .ok _ => true

end Expr

end Sheetwork.Model
