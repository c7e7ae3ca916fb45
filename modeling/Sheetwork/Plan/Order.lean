import Sheetwork.Graph.Components
import Sheetwork.Plan.Rows
/-
  Plans: the order in which the formulas of a report are evaluated. A group of dragged formulas is one unit, any other
  formula is a unit of its own. Units come after those that they need. Where units need one another, their groups are
  taken apart and the cells ordered one by one.
-/

namespace Sheetwork.Plan

structure CellName where
  (sheet cell : String)
  deriving DecidableEq, Ord, Inhabited

def CellName.ofText (own s : String) : CellName :=
  match Text.cut? "!" s with
  | some (sheet, cell) => ⟨sheet, cell⟩
  | none => ⟨own, s⟩

/-- A formula to evaluate: the cells that it reads, and the group that it is dragged in. -/
structure Job where
  name : CellName
  needs : List CellName
  group : Option String
  record : Record

namespace Job

def needsOf (sheet references : String) : List CellName :=
  (((Text.split "; " references).map Text.strip).filter (· ≠ "")).map (CellName.ofText sheet)

def single (sheet cell references : String) : Job := ⟨⟨sheet, cell⟩, needsOf sheet references, none, default⟩

def textField (r : Record) (name : String) : Outcome String :=
  let v := r.get name
  if v.truthy then Fault.noProperty.ifNone v.text? else .ok ""

/-- The group of a row, which has a positive number. -/
def groupOf (r : Record) : Outcome (Option String) := do
  let v := r.get "GroupID"
  if v.truthy then pure (if ← v.gt (.int 0) then some v.toText else none) else pure none

def ofRecord (sheet : String) (r : Record) : Outcome Job := do
  pure { name := ⟨sheet, (← r.need "Cell").toText⟩, needs := needsOf sheet (← textField r "References")
         group := ← groupOf r, record := r }

end Job

variable (sheets : List (String × List Record))

def jobs : Outcome (List Job) := do
  for (_, rs) in sheets do
    for r in rs do
      let _ ← r.need "Cell"
  sheets.flatMapM fun (sheet, rs) => (rs.filter isCalculated).mapM (Job.ofRecord sheet)

/-! Units -/

structure Batch where
  id : String
  jobs : List Job

def Batch.isGroup (u : Batch) : Bool := 2 ≤ u.jobs.length

def Batch.has (u : Batch) (n : CellName) : Bool := u.jobs.any (·.name = n)

variable (js : List Job)

def groupUnits : List Batch :=
  let groups := bucketBy Prod.fst (js.filterMap fun j => j.group.map (·, j))
  (groups.map fun (g, js) => { id := "g" ++ g, jobs := js.map (·.2) : Batch }).filter Batch.isGroup

def singleUnits (groups : List Batch) (js : List Job) : List Batch :=
  let singles := js.filter fun j => !groups.any (·.has j.name)
  (bucketBy Job.name singles).map fun (n, js) => { id := "c" ++ n.sheet ++ "!" ++ n.cell, jobs := js.take 1 }

def units : List Batch :=
  let groups := groupUnits js
  groups ++ singleUnits groups js

variable (us : List Batch)

def unitOf? (n : CellName) : Option String := (us.reverse.find? (·.has n)).map Batch.id

def unitEdges (js : List Job) : List (String × String) :=
  js.flatMap fun j =>
    match unitOf? us j.name with
    | none => []
    | some mine => (j.needs.filterMap (unitOf? us)).filterMap fun u => if u = mine then none else some (u, mine)

def condensed {α : Type} [DecidableEq α] (components : List (List α)) (edges : List (α × α)) : List (Nat × Nat) :=
  let number (a : α) := components.findIdx (a ∈ ·)
  let numbered := edges.map fun (a, b) => (number a, number b)
  (List.range components.length).flatMap fun i =>
    let targets := (numbered.filter fun (a, b) => a = i && b ≠ i).map (·.2)
    (Ordered.ofList targets).map (i, ·)

/-! Steps -/

inductive Step where
  | group (jobs : List Job)
  | cell (job : Job)

/-- The needs among the cells of some formulas, which are numbered by their places in a
list of names. -/
def cellEdges (names : List CellName) : List (Nat × Nat) :=
  names.zipIdx.flatMap fun (n, i) =>
    let needs := (js.filter (·.name = n)).flatMap Job.needs
    ((needs.filter (· ≠ n)).eraseDups.filterMap (names.idxOf? ·)).map (·, i)

/-- Formulas that need one another, one by one: first what can be ordered, then the rest by name. -/
def looseNames (js all : List Job) : List CellName :=
  let names := Ordered.ofList (js.map Job.name)
  Graph.ordered names (cellEdges all names)

def loosened (js all : List Job) : List Step :=
  (looseNames js all).filterMap fun n => (js.reverse.find? (·.name = n)).map .cell

def members (component : List String) : List Batch := component.filterMap fun id => us.find? (·.id = id)

def componentSteps (all : List Job) (component : List String) : List Step :=
  match members us component with
  | [u] => if u.isGroup then [.group u.jobs] else u.jobs.map .cell
  | members => loosened (members.flatMap Batch.jobs) all

/-- The components of units, each after those that it needs. -/
def unitOrder : List (List String) :=
  let edges := unitEdges (units js) js
  let components := Graph.componentsOf ((units js).map Batch.id) edges
  Graph.ordered components (condensed components edges)

def steps : List Step := (unitOrder js).flatMap (componentSteps (units js) js)

def checkGroups : Outcome PUnit :=
  if (groupUnits js).all fun u => (Number.int? (Text.drop 1 u.id)).isSome then .ok ⟨⟩ else .error .badValue

def evaluationOrder : Outcome (List Step) := do
  let js ← jobs sheets
  checkGroups js
  pure (steps js)

/-- Single formulas, each after those that it needs, in the order in which they are ready; a formula
  that is held back, also by itself, comes last. -/
def singleOrder : List Job :=
  let names := (js.map Job.name).eraseDups
  let last? := fun (n : CellName) => js.reverse.find? (·.name = n)
  let edges := (names.filterMap last?).zipIdx.flatMap fun (j, i) => (j.needs.filterMap (names.idxOf? ·)).map (·, i)
  (Graph.ordered names edges).filterMap last?

/-- The order of single formulas that are listed with their sheets and references. -/
def orderedNames (rows : List (String × String × String)) : List CellName :=
  (singleOrder (rows.map fun (sheet, cell, refs) => .single sheet cell refs)).map Job.name

end Sheetwork.Plan
