import Sheetwork.Graph.Kahn
import Sheetwork.Model.ValueText
import Sheetwork.Model.Expr
/-
  Models: an order of computation. A formula needs the formula cells in the bounds of its references; ready formulas
  are taken in the order in which they are given.
-/

namespace Sheetwork.Model

open Formula

structure Node where
  sheet : String
  (row col : Int)
  deriving Ord

/-- The bounds of a reference for computation: the corners of a rectangle in any order, whole rows
and columns open to the sides. -/
def reachOf (ref : String) : Outcome Address.Bounds :=
  let clean := (Text.replace "$" "" ref).toList
  let unknown := Fault.saying .noCode ("Unsupported reference for dependency analysis: " ++ ref)
  match Text.cutL? [':'] clean with
  | none => (unknown.ifNone (spot? clean)).map fun p => ⟨some p.col, some p.row, some p.col, some p.row⟩
  | some (a, b) =>
    match spot? a, spot? b with
    | some p, some q =>
      .ok ⟨some (min p.col q.col), some (min p.row q.row), some (max p.col q.col), some (max p.row q.row)⟩
    | _, _ =>
      if isDigits a && isDigits b then .ok ⟨none, some (Text.natOfDigits a), none, some (Text.natOfDigits b)⟩
      else if isLetters a && isLetters b then
        .ok ⟨some (Column.spelled a).toNat, none, some (Column.spelled b).toNat, none⟩
      else .error unknown

variable (cells : List (String × List Node))

def reached (current : String) (t : Lexeme) : Outcome (List Node) := do
  if !t.isRange then return []
  let raw := Text.strip t.text
  let (sheet, ref) := splitSheet raw
  let sheet := if sheet.getD "" = "" then current else sheet.getD ""
  if !isReference ref then
    .error (.saying .noCode (current ++ ": unsupported reference token in dependency graph: " ++ Text.quoted raw))
  else
    match cells.find? (·.1 = sheet) with
    | none => pure []
    | some (_, there) =>
      let b ← reachOf ref
      pure (there.filter fun n => inBounds n.row n.col b)

/-- The formula cells that a formula needs, out of those of each sheet that has any. -/
def needs (formula current : String) : Outcome (List Node) := do
  let found ← (← Lexeme.all formula).mapM (reached cells current)
  pure (Ordered.ofList found.flatten)

def namedInCycle : Nat := 20

/-- Edges between positions: each key and those it needs. A key that needs what is not there
waits for itself. -/
def edges (index : Std.HashMap Place Nat) (needs : List (Place × List Place)) : Outcome (List (Nat × Nat)) := do
  let of (k : Place) (ds : List Place) := do
    if ds.isEmpty then return (0, [])
    let i ← Fault.missingKey.ifNone index[k]?
    pure (i, ds.eraseDups.map fun d => ((index[d]?).getD i, i))
  let all ← needs.mapM fun (k, ds) => of k ds
  pure ((Ordered.sortOn (·.1) all).flatMap (·.2))

def order (keys : List Place) (needs : List (Place × List Place)) : Outcome (List Place) := do
  let index := Graph.positions keys
  let es ← edges index needs
  let known := keys.toArray
  let isLast (i : Nat) := ((known[i]?).bind (index[·]?)) = some i
  let found := ((Graph.kahn keys.length es).filter isLast).filterMap (known[·]?)
  if found.length = keys.length then pure found
  else
    let done : Std.HashMap Place Unit := found.foldl (fun m k => m.insert k ()) ∅
    let left := (keys.filter (!done.contains ·)).take namedInCycle
    .error (.saying .noCode ("Circular or unresolved formula dependencies detected: " ++
      Text.join ", " (left.map Place.text)))

end Sheetwork.Model
